import Qsmp.Kex.Duplex
import Qsmp.Kex.Simplex
/-!
# The configuration test

Both servers compare the configuration string of a connect request with
their own by `qsc_stringutils_compare_strings`. That function adds the
byte differences up in one `char`, so it accepts every string whose
differences add up to a multiple of 256, and the servers with it.
-/

namespace Qsmp

/-- The sum of the byte differences of two strings. -/
def byteDifference (str1 str2 : Bytes) : ℕ :=
  ((str1.zip str2).map fun p => (p.1 ^^^ p.2).toNat).sum

/-- The accumulator keeps the low byte of the sum. -/
theorem compare_fold : ∀ (l : List (UInt8 × UInt8)) (c : UInt8),
    (l.foldl (fun (c : UInt8) p => c + (p.1 ^^^ p.2)) c).toNat
      = (c.toNat + (l.map fun p => (p.1 ^^^ p.2).toNat).sum) % 256
  | [], c => by simp [Nat.mod_eq_of_lt c.toNat_lt]
  | p :: l, c => by
      rw [List.foldl_cons, compare_fold l, UInt8.toNat_add, List.map_cons, List.sum_cons]
      omega

/-- **What the comparison accepts**: strings whose differences add up to a
multiple of 256. -/
theorem qscStringutilsCompareStrings_iff {str1 str2 : Bytes} :
    qscStringutilsCompareStrings str1 str2 = true ↔ 256 ∣ byteDifference str1 str2 := by
  have hfold := compare_fold (str1.zip str2) 0
  rw [qscStringutilsCompareStrings, beq_iff_eq, ← UInt8.toNat_inj, hfold, byteDifference]
  simp [Nat.dvd_iff_mod_eq_zero]

theorem byteDifference_self : ∀ str : Bytes, byteDifference str str = 0
  | [] => rfl
  | b :: str => by
      have ih := byteDifference_self str
      simp only [byteDifference] at ih ⊢
      rw [List.zip_cons_cons, List.map_cons, List.sum_cons, ih, UInt8.xor_self]
      rfl

/-- Equal strings are accepted. -/
theorem qscStringutilsCompareStrings_self (str : Bytes) :
    qscStringutilsCompareStrings str str = true := by
  rw [qscStringutilsCompareStrings_iff, byteDifference_self]
  exact Nat.dvd_zero 256

variable {P : Params} {K : Primitives} {A : Asymmetric P} {tm : UInt64} {keypair sign : A.Seed}
variable {cns : QsmpConnectionState} {packetin packetout : QsmpPacket}

/-- The configuration string of a connect request, behind the key identity. -/
def requestedConfig (packetin : QsmpPacket) : Bytes := packetin.pmessage.read keyidSize configSize

/-- **What the configuration test is for.** A result without error names
the configuration of the build. A request that reaches the test with any
other string is refused as an unknown protocol: the exchange flag is none,
and the key pair is the one the state held before. -/
def ConfigChecked {S Key : Type} (P : Params) (packetin : QsmpPacket) (reached : Prop)
    (keys : S → Key) (ks : S) (r : StepResult S) : Prop :=
  (r.qerr = .none → requestedConfig packetin = P.configString.val) ∧
    (reached → requestedConfig packetin ≠ P.configString.val →
      r.qerr = .unknownProtocol ∧ r.cns.exflag = .none ∧ keys r.ks = keys ks)

/-- The request passes every test before that of the configuration. -/
def SimplexReached (tm : UInt64) (kss : QsmpKexSimplexServerState P) (packetin : QsmpPacket) :
    Prop :=
  packetin.flag = QsmpFlags.connectRequest.toByte ∧
    kexSimplexServerKeyidVerify kss.keyid packetin.pmessage = true ∧ tm ≤ kss.expiration

/-- The same, for the duplex server. -/
def DuplexReached (tm : UInt64) (kss : QsmpKexDuplexServerState P) (packetin : QsmpPacket) :
    Prop :=
  packetin.flag = QsmpFlags.connectRequest.toByte ∧
    (kss.keyQuery (packetin.pmessage.octets 0 keyidSize)).isSome = true ∧ tm ≤ kss.expiration

/-- The key pair in a server's state. -/
def QsmpKexSimplexServerState.keys (kss : QsmpKexSimplexServerState P) :
    Octets P.publicKeySize × Octets P.privateKeySize := (kss.pubkey, kss.prikey)

/-- The same, for the duplex server. -/
def QsmpKexDuplexServerState.keys (kss : QsmpKexDuplexServerState P) :
    Octets P.publicKeySize × Octets P.privateKeySize := (kss.pubkey, kss.prikey)

/-! ## The two servers -/

/-- The duplex server succeeds only past the test. -/
theorem duplex_reached_of_none {kss : QsmpKexDuplexServerState P}
    (h : (kexDuplexServerConnectResponse K A tm keypair sign kss cns packetin packetout).qerr
      = .none) :
    DuplexReached tm kss packetin ∧
      qscStringutilsCompareStrings (requestedConfig packetin) P.configString.val = true := by
  obtain ⟨hflag, htime, hconf, rverkey, hquery, -⟩ :=
    kexDuplexServerConnectResponse_of_none rfl h
  exact ⟨⟨hflag, by rw [hquery]; rfl, htime⟩, hconf⟩

/-- And there the comparison decides: with it the exchange goes on, without
it nothing is generated. -/
theorem duplex_of_reached {kss : QsmpKexDuplexServerState P}
    (h : DuplexReached tm kss packetin) :
    let r := kexDuplexServerConnectResponse K A tm keypair sign kss cns packetin packetout
    if qscStringutilsCompareStrings (requestedConfig packetin) P.configString.val then
      r.qerr = .none
    else r.qerr = .unknownProtocol ∧ r.cns.exflag = .none ∧ r.ks.keys = kss.keys := by
  obtain ⟨hflag, hquery, htime⟩ := h
  obtain ⟨rverkey, hquery⟩ := Option.isSome_iff_exists.1 hquery
  simp only [kexDuplexServerConnectResponse, if_pos hflag, hquery, if_pos htime,
    requestedConfig]
  split
  · rfl
  · exact ⟨rfl, rfl, rfl⟩

/-- The simplex server succeeds only past the test. -/
theorem simplex_reached_of_none {kss : QsmpKexSimplexServerState P}
    (h : (kexSimplexServerConnectResponse K A tm keypair sign kss cns packetin packetout).qerr
      = .none) :
    SimplexReached tm kss packetin ∧
      qscStringutilsCompareStrings (requestedConfig packetin) P.configString.val = true := by
  obtain ⟨hflag, hkeyid, htime, hconf, -⟩ := kexSimplexServerConnectResponse_of_none rfl h
  exact ⟨⟨hflag, hkeyid, htime⟩, hconf⟩

/-- And there the comparison decides. -/
theorem simplex_of_reached {kss : QsmpKexSimplexServerState P}
    (h : SimplexReached tm kss packetin) :
    let r := kexSimplexServerConnectResponse K A tm keypair sign kss cns packetin packetout
    if qscStringutilsCompareStrings (requestedConfig packetin) P.configString.val then
      r.qerr = .none
    else r.qerr = .unknownProtocol ∧ r.cns.exflag = .none ∧ r.ks.keys = kss.keys := by
  obtain ⟨hflag, hkeyid, htime⟩ := h
  simp only [kexSimplexServerConnectResponse, if_pos hflag, hkeyid, if_true, if_pos htime,
    requestedConfig]
  split
  · rfl
  · exact ⟨rfl, rfl, rfl⟩

/-- A server whose outcome the comparison decides checks the configuration
exactly when no other string is accepted. -/
theorem configChecked_iff {S Key : Type} {keys : S → Key} {ks : S} {r : StepResult S}
    {reached : Prop}
    (hnone : r.qerr = .none → reached ∧
      qscStringutilsCompareStrings (requestedConfig packetin) P.configString.val = true)
    (hreached : reached →
      if qscStringutilsCompareStrings (requestedConfig packetin) P.configString.val then
        r.qerr = .none
      else r.qerr = .unknownProtocol ∧ r.cns.exflag = .none ∧ keys r.ks = keys ks) :
    ConfigChecked P packetin reached keys ks r ↔
      ¬ (reached ∧ requestedConfig packetin ≠ P.configString.val ∧
        256 ∣ byteDifference (requestedConfig packetin) P.configString.val) := by
  rw [← qscStringutilsCompareStrings_iff]
  constructor
  · rintro ⟨honly, -⟩ ⟨hr, hne, hcmp⟩
    exact hne (honly (by simpa only [hcmp, if_true] using hreached hr))
  · intro hok
    refine ⟨fun h => ?_, fun hr hne => ?_⟩
    · obtain ⟨hr, hcmp⟩ := hnone h
      by_contra hne
      exact hok ⟨hr, hne, hcmp⟩
    · have hcmp : ¬ qscStringutilsCompareStrings (requestedConfig packetin) P.configString.val
          = true := fun hcmp => hok ⟨hr, hne, hcmp⟩
      simpa only [hcmp, if_false, Bool.false_eq_true] using hreached hr

/-- **When the configuration is checked.** For every request, both servers
do what the test is for exactly when the request does not reach it with a
string that differs from the build's and whose byte differences add up to
a multiple of 256. -/
theorem config_checked_iff (tm : UInt64) (keypair sign : A.Seed) (cns : QsmpConnectionState)
    (packetin packetout : QsmpPacket) :
    (∀ kss : QsmpKexDuplexServerState P,
      ConfigChecked P packetin (DuplexReached tm kss packetin) QsmpKexDuplexServerState.keys kss
          (kexDuplexServerConnectResponse K A tm keypair sign kss cns packetin packetout) ↔
        ¬ (DuplexReached tm kss packetin ∧ requestedConfig packetin ≠ P.configString.val ∧
          256 ∣ byteDifference (requestedConfig packetin) P.configString.val)) ∧
    (∀ kss : QsmpKexSimplexServerState P,
      ConfigChecked P packetin (SimplexReached tm kss packetin) QsmpKexSimplexServerState.keys kss
          (kexSimplexServerConnectResponse K A tm keypair sign kss cns packetin packetout) ↔
        ¬ (SimplexReached tm kss packetin ∧ requestedConfig packetin ≠ P.configString.val ∧
          256 ∣ byteDifference (requestedConfig packetin) P.configString.val)) :=
  ⟨fun _ => configChecked_iff duplex_reached_of_none duplex_of_reached,
    fun _ => configChecked_iff simplex_reached_of_none simplex_of_reached⟩

/-- A connect request whose configuration string has the top bit of its
first two bytes flipped. -/
def flippedRequest : QsmpPacket where
  flag := QsmpFlags.connectRequest.toByte
  msglen := UInt32.ofNat (keyidSize + configSize)
  sequence := 0
  pmessage := Mem.zero.write keyidSize
    (228 :: 233 :: Params.dilithiumKyber.configString.val.drop 2)

/-- Both servers answer it, though the configuration is not theirs. -/
theorem config_flipped_accepted :
    requestedConfig flippedRequest ≠ Params.dilithiumKyber.configString.val ∧
      (kexDuplexServerConnectResponse .plain (.plain .dilithiumKyber) 5 (3 : UInt8) (4 : UInt8)
        (.plain .dilithiumKyber) (.initial .duplex true) flippedRequest .init).qerr = .none ∧
      (kexSimplexServerConnectResponse .plain (.plain .dilithiumKyber) 5 (3 : UInt8) (4 : UInt8)
        (.plain .dilithiumKyber) (.initial .simplex true) flippedRequest .init).qerr = .none := by
  decide +kernel

end Qsmp
