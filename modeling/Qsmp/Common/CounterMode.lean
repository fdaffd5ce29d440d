import Mathlib.Data.List.Iterate
import Qsmp.Common.Memory
/-!
# Counter mode over an arbitrary block function

A stream cipher in counter mode: each started block of the input is
combined with the key-stream block of the current counter, and the
counter steps on. The key stream and the step are parameters, so nothing
here depends on a cipher; what is proved is that the transform keeps the
length, that it is its own inverse, and that the key stream it uses is
that of consecutive counters, as many as the length of the input alone
says.
-/

namespace Qsmp

/-- Bytewise exclusive or, as long as the shorter argument. -/
def xorBytes (a b : Bytes) : Bytes := List.zipWith (· ^^^ ·) a b

@[simp] theorem length_xorBytes {a b : Bytes} :
    (xorBytes a b).length = min a.length b.length := by simp [xorBytes]

theorem xorBytes_append {a b c d : Bytes} (h : a.length = c.length) :
    xorBytes (a ++ b) (c ++ d) = xorBytes a c ++ xorBytes b d := List.zipWith_append h

/-- The same key stream twice is no key stream. -/
theorem xorBytes_xorBytes : ∀ {a b : Bytes}, b.length ≤ a.length → xorBytes a (xorBytes a b) = b
  | _, [], _ => by simp [xorBytes]
  | [], _ :: _, h => absurd h (by simp)
  | x :: a, y :: b, h => by
      have ih := xorBytes_xorBytes (a := a) (b := b) (by simpa using h)
      simp only [xorBytes, List.zipWith_cons_cons, List.cons.injEq] at ih ⊢
      exact ⟨by rw [← UInt8.xor_assoc, UInt8.xor_self, UInt8.zero_xor], ih⟩

/-- No more of the key stream is used than there are bytes. -/
theorem xorBytes_take {a b : Bytes} : xorBytes (a.take b.length) b = xorBytes a b := by
  have hall : (xorBytes a b).take b.length = xorBytes a b :=
    List.take_of_length_le (by rw [length_xorBytes]; exact Nat.min_le_right _ _)
  rw [← hall, xorBytes, xorBytes, List.take_zipWith, List.take_length]

/-- **Two key streams undo each other** exactly when they agree on the
bytes that are used. -/
theorem xorBytes_xorBytes_eq_iff : ∀ {a b m : Bytes}, m.length ≤ a.length → m.length ≤ b.length →
    (xorBytes a (xorBytes b m) = m ↔ a.take m.length = b.take m.length)
  | _, _, [], _, _ => by simp [xorBytes]
  | [], _, _ :: _, ha, _ => absurd ha (by simp)
  | _, [], _ :: _, _, hb => absurd hb (by simp)
  | x :: a, y :: b, z :: m, ha, hb => by
      have ih := xorBytes_xorBytes_eq_iff (a := a) (b := b) (m := m) (by simpa using ha)
        (by simpa using hb)
      have hbyte : x ^^^ (y ^^^ z) = z ↔ x = y := by
        rw [← UInt8.xor_assoc]
        constructor
        · intro h
          have hcancel := congrArg (· ^^^ z) h
          simp only [UInt8.xor_assoc, UInt8.xor_self, UInt8.xor_zero] at hcancel
          exact UInt8.xor_eq_zero_iff.1 hcancel
        · rintro rfl
          rw [UInt8.xor_self, UInt8.zero_xor]
      simp only [xorBytes, List.zipWith_cons_cons, List.cons.injEq, List.length_cons,
        List.take_succ_cons] at ih ⊢
      rw [ih, hbyte]

/-- **What is flipped in the cipher-text is flipped in the plain text**:
the difference of two cipher-texts, on top of one plain text, is the other
under the same key stream. -/
theorem xorBytes_difference : ∀ {a m c : Bytes}, m.length ≤ a.length → c.length = m.length →
    xorBytes (xorBytes (xorBytes a m) c) m = xorBytes a c
  | _, [], c, _, hc => by
      rw [List.eq_nil_of_length_eq_zero hc]
      simp [xorBytes]
  | [], _ :: _, _, h, _ => absurd h (by simp)
  | _, _ :: _, [], _, hc => absurd hc (by simp)
  | x :: a, y :: m, z :: c, h, hc => by
      have ih := xorBytes_difference (a := a) (m := m) (c := c) (by simpa using h)
        (by simpa using hc)
      have hbyte : x ^^^ y ^^^ z ^^^ y = x ^^^ z := by
        rw [UInt8.xor_assoc x, UInt8.xor_comm y, ← UInt8.xor_assoc, UInt8.xor_assoc,
          UInt8.xor_self, UInt8.xor_zero]
      simp only [xorBytes, List.zipWith_cons_cons, List.cons.injEq] at ih ⊢
      exact ⟨hbyte, ih⟩

namespace CounterMode

variable {N : Type*}

/-- The loop over whole blocks of `size` bytes and the tail after it.
`fuel` bounds the number of blocks. -/
def loop (keystream : N → Bytes) (next : N → N) (size : ℕ) : ℕ → N → Bytes → N × Bytes
  | 0, nonce, _ => (nonce, [])
  | fuel + 1, nonce, input =>
    if size ≤ input.length then
      let rest := loop keystream next size fuel (next nonce) (input.drop size)
      (rest.1, xorBytes (keystream nonce) (input.take size) ++ rest.2)
    else if input.length ≠ 0 then
      (next nonce, xorBytes (keystream nonce) input)
    else (nonce, [])

/-- The transform of an input: one block for every started `size` bytes. -/
def transform (keystream : N → Bytes) (next : N → N) (size : ℕ) (nonce : N) (input : Bytes) :
    N × Bytes :=
  loop keystream next size (input.length / size + 1) nonce input

variable {keystream : N → Bytes} {next : N → N} {size : ℕ}

/-- One block less to go after a whole block. -/
theorem drop_div_lt {fuel : ℕ} {input : Bytes} (hs : 0 < size) (hle : size ≤ input.length)
    (h : input.length / size < fuel + 1) : (input.drop size).length / size < fuel := by
  rw [Nat.div_eq_sub_div hs hle] at h
  rw [List.length_drop]
  omega

/-- **Length is kept**, given enough fuel for the blocks. -/
theorem length_loop (hks : ∀ n, (keystream n).length = size) (hs : 0 < size) :
    ∀ {fuel : ℕ} {nonce : N} {input : Bytes}, input.length / size < fuel →
      (loop keystream next size fuel nonce input).2.length = input.length := by
  intro fuel
  induction fuel with
  | zero => intro nonce input h; exact absurd h (Nat.not_lt_zero _)
  | succ fuel ih =>
      intro nonce input h
      rw [loop]
      split
      · rename_i hle
        simp only [List.length_append, length_xorBytes, hks, ih (drop_div_lt hs hle h),
          List.length_take, List.length_drop]
        omega
      · split
        · simp only [length_xorBytes, hks]
          omega
        · simp only [List.length_nil]
          omega

/-- **The loop is its own inverse**: run from the same counter over its own
output it gives the input back, and ends on the same counter. -/
theorem loop_loop (hks : ∀ n, (keystream n).length = size) (hs : 0 < size) :
    ∀ {fuel : ℕ} {nonce : N} {input : Bytes}, input.length / size < fuel →
      loop keystream next size fuel nonce (loop keystream next size fuel nonce input).2
        = ((loop keystream next size fuel nonce input).1, input) := by
  intro fuel
  induction fuel with
  | zero => intro nonce input h; exact absurd h (Nat.not_lt_zero _)
  | succ fuel ih =>
      intro nonce input h
      have hlen : (loop keystream next size (fuel + 1) nonce input).2.length = input.length :=
        length_loop hks hs h
      -- The output is as long as the input, so both runs take the same branch.
      rw [loop, hlen]
      rw [loop] at hlen ⊢
      split
      · rename_i hle
        have hblock : (xorBytes (keystream nonce) (input.take size)).length = size := by
          simp only [length_xorBytes, hks, List.length_take]
          omega
        simp only [List.drop_left' hblock, List.take_left' hblock,
          ih (drop_div_lt hs hle h)]
        rw [xorBytes_xorBytes (by rw [hks, List.length_take]; omega), List.take_append_drop]
      · split
        · rw [xorBytes_xorBytes (by rw [hks]; omega)]
        · rename_i hne
          simp only [ne_eq, not_not] at hne
          simp [List.eq_nil_of_length_eq_zero hne]

@[simp] theorem length_transform (hks : ∀ n, (keystream n).length = size) (hs : 0 < size)
    {nonce : N} {input : Bytes} :
    (transform keystream next size nonce input).2.length = input.length :=
  length_loop hks hs (Nat.lt_succ_self _)

/-- **Decryption inverts encryption**, and leaves the counter where
encryption left it. -/
theorem transform_transform (hks : ∀ n, (keystream n).length = size) (hs : 0 < size)
    {nonce : N} {input : Bytes} :
    transform keystream next size nonce (transform keystream next size nonce input).2
      = ((transform keystream next size nonce input).1, input) := by
  have hlen : (transform keystream next size nonce input).2.length = input.length :=
    length_transform hks hs
  rw [transform, hlen]
  exact loop_loop hks hs (Nat.lt_succ_self _)

/-! ## The counters -/

/-- The counters `loop` evaluates the key stream at, in order. -/
def loopCounters (next : N → N) (size : ℕ) : ℕ → N → Bytes → List N
  | 0, _, _ => []
  | fuel + 1, nonce, input =>
    if size ≤ input.length then
      nonce :: loopCounters next size fuel (next nonce) (input.drop size)
    else if input.length ≠ 0 then [nonce]
    else []

/-- The counters of a transform. -/
def counters (next : N → N) (size : ℕ) (nonce : N) (input : Bytes) : List N :=
  loopCounters next size (input.length / size + 1) nonce input

/-- The number of blocks of `size` bytes that `length` bytes start. -/
def startedBlocks (size length : ℕ) : ℕ := (length + (size - 1)) / size

@[simp] theorem startedBlocks_zero (hs : 0 < size) : startedBlocks size 0 = 0 := by
  rw [startedBlocks, Nat.zero_add]
  exact Nat.div_eq_of_lt (by omega)

/-- A whole block is one more than those of the rest. -/
theorem startedBlocks_of_le {length : ℕ} (hs : 0 < size) (hle : size ≤ length) :
    startedBlocks size length = startedBlocks size (length - size) + 1 := by
  have hsplit : length + (size - 1) = length - size + (size - 1) + size := by omega
  rw [startedBlocks, hsplit, Nat.add_div_right _ hs]
  rfl

/-- A tail is one block. -/
theorem startedBlocks_of_lt {length : ℕ} (hlt : length < size) (hne : length ≠ 0) :
    startedBlocks size length = 1 := by
  have hsplit : length + (size - 1) = length - 1 + size := by omega
  rw [startedBlocks, hsplit, Nat.add_div_right _ (by omega), Nat.div_eq_of_lt (by omega)]

/-- **The counters are consecutive**, one for every started block. -/
theorem loopCounters_eq (hs : 0 < size) :
    ∀ {fuel : ℕ} {nonce : N} {input : Bytes}, input.length / size < fuel →
      loopCounters next size fuel nonce input =
        List.iterate next nonce (startedBlocks size input.length) := by
  intro fuel
  induction fuel with
  | zero => intro nonce input h; exact absurd h (Nat.not_lt_zero _)
  | succ fuel ih =>
      intro nonce input h
      rw [loopCounters]
      split
      · rename_i hle
        rw [ih (drop_div_lt hs hle h), List.length_drop, startedBlocks_of_le hs hle, List.iterate]
      · rename_i hgt
        split
        · rename_i hne
          rw [startedBlocks_of_lt (by omega) hne, List.iterate, List.iterate]
        · rename_i hzero
          rw [not_ne_iff.1 hzero, startedBlocks_zero hs, List.iterate]

/-- **The loop uses the key stream of its counters**, in order, and ends on
the counter after the last. -/
theorem loop_eq (hks : ∀ n, (keystream n).length = size) (hs : 0 < size) :
    ∀ {fuel : ℕ} {nonce : N} {input : Bytes}, input.length / size < fuel →
      loop keystream next size fuel nonce input =
        (next^[startedBlocks size input.length] nonce,
          xorBytes ((loopCounters next size fuel nonce input).flatMap keystream) input) := by
  intro fuel
  induction fuel with
  | zero => intro nonce input h; exact absurd h (Nat.not_lt_zero _)
  | succ fuel ih =>
      intro nonce input h
      rw [loop, loopCounters]
      split
      · rename_i hle
        have hblock : (keystream nonce).length = (input.take size).length := by
          rw [hks, List.length_take, Nat.min_eq_left hle]
        -- The block of the head covers exactly what is taken off the input.
        have hxor : xorBytes (keystream nonce ++ (loopCounters next size fuel (next nonce)
              (input.drop size)).flatMap keystream) (input.take size ++ input.drop size) = _ :=
          List.zipWith_append hblock
        rw [List.take_append_drop] at hxor
        simp only [ih (drop_div_lt hs hle h), List.length_drop, startedBlocks_of_le hs hle,
          Function.iterate_succ_apply, List.flatMap_cons, hxor]
        rfl
      · rename_i hgt
        split
        · rename_i hne
          rw [startedBlocks_of_lt (by omega) hne, List.flatMap_singleton]
          rfl
        · rename_i hzero
          rw [not_ne_iff.1 hzero, startedBlocks_zero hs]
          rfl

/-- One counter for every started block, from the nonce on. -/
theorem counters_eq (hs : 0 < size) {nonce : N} {input : Bytes} :
    counters next size nonce input =
      List.iterate next nonce (startedBlocks size input.length) :=
  loopCounters_eq hs (Nat.lt_succ_self _)

/-- **Counter mode**: the input under the key stream of its counters, and
the counter after them. -/
theorem transform_eq (hks : ∀ n, (keystream n).length = size) (hs : 0 < size)
    {nonce : N} {input : Bytes} :
    transform keystream next size nonce input =
      (next^[startedBlocks size input.length] nonce,
        xorBytes ((counters next size nonce input).flatMap keystream) input) :=
  loop_eq hks hs (Nat.lt_succ_self _)

/-! ## Inputs in pieces -/

/-- **A whole block goes first**, and the rest from the next counter. -/
theorem transform_block (hs : 0 < size) {nonce : N} {block rest : Bytes}
    (hlen : block.length = size) :
    transform keystream next size nonce (block ++ rest) =
      ((transform keystream next size (next nonce) rest).1,
        xorBytes (keystream nonce) block ++
          (transform keystream next size (next nonce) rest).2) := by
  have hcount : (block ++ rest).length / size = rest.length / size + 1 := by
    rw [List.length_append, hlen, Nat.add_comm, Nat.add_div_right _ hs]
  have hle : size ≤ (block ++ rest).length := by
    rw [List.length_append, hlen]
    omega
  rw [transform, transform, hcount, loop, if_pos hle, List.take_left' hlen, List.drop_left' hlen]

theorem transform_nil (hs : 0 < size) {nonce : N} :
    transform keystream next size nonce [] = (nonce, []) := by
  have hgt : ¬ size ≤ ([] : Bytes).length := Nat.not_le.2 hs
  have hempty : ¬ ([] : Bytes).length ≠ 0 := not_not.2 rfl
  rw [transform, loop, if_neg hgt, if_neg hempty]

/-- **An input in two pieces is one input**, when the first piece is of
whole blocks. -/
theorem transform_append (hs : 0 < size) {rest : Bytes} :
    ∀ {blocks : ℕ} {nonce : N} {head : Bytes}, head.length = size * blocks →
      transform keystream next size nonce (head ++ rest) =
        ((transform keystream next size (transform keystream next size nonce head).1 rest).1,
          (transform keystream next size nonce head).2 ++
            (transform keystream next size
              (transform keystream next size nonce head).1 rest).2) := by
  intro blocks
  induction blocks with
  | zero =>
      intro nonce head hlen
      rw [List.eq_nil_of_length_eq_zero hlen, transform_nil hs, List.nil_append, List.nil_append]
  | succ blocks ih =>
      intro nonce head hlen
      rw [Nat.mul_succ] at hlen
      have hblock : (head.take size).length = size := by
        rw [List.length_take]
        omega
      have hrest : (head.drop size).length = size * blocks := by
        rw [List.length_drop]
        omega
      rw [← List.take_append_drop size head, List.append_assoc, transform_block hs hblock,
        transform_block hs hblock, ih hrest, List.append_assoc]

end CounterMode

end Qsmp
