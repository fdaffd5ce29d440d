import Mathlib.Data.List.Basic
import Mathlib.Tactic.Common
/-!
# Block transcripts

What a buffered block function sees of a stream, and when the transcript
of a history of entries determines the history. The blocks and the bytes
left over are determined by the stream; a history is determined by its
transcript as soon as one entry is determined by any transcript that
starts with its own.
-/

namespace Qsmp

variable {α β S E : Type*}

/-- **A stream cut into blocks**: whole blocks of `rate` elements, and
fewer than `rate` left over. -/
structure Chunked (rate : ℕ) (stream : List α) (blocks : List (List α)) (rest : List α) :
    Prop where
  flatten : blocks.flatten ++ rest = stream
  full : ∀ block ∈ blocks, block.length = rate
  short : rest.length < rate

/-- The whole blocks of a stream. -/
def wholeBlocks (rate : ℕ) (stream : List α) : List (List α) :=
  (List.range (stream.length / rate)).map fun i => (stream.drop (rate * i)).take rate

namespace Chunked

variable {rate : ℕ} {stream more rest rest' : List α} {blocks blocks' : List (List α)}

/-- A stream shorter than a block is left over whole. -/
theorem of_short (h : stream.length < rate) : Chunked rate stream [] stream :=
  ⟨rfl, fun _ hmem => absurd hmem (List.not_mem_nil), h⟩

/-- A block in front. -/
theorem cons {block : List α} (hblock : block.length = rate) (h : Chunked rate stream blocks rest) :
    Chunked rate (block ++ stream) (block :: blocks) rest := by
  refine ⟨?_, ?_, h.short⟩
  · rw [List.flatten_cons, List.append_assoc, h.flatten]
  · intro b hb
    rcases List.mem_cons.mp hb with rfl | hb
    · exact hblock
    · exact h.full b hb

/-- **Cutting goes on where it stopped**: the bytes left over are put in
front of what comes next. -/
theorem append (h : Chunked rate stream blocks rest)
    (h' : Chunked rate (rest ++ more) blocks' rest') :
    Chunked rate (stream ++ more) (blocks ++ blocks') rest' := by
  refine ⟨?_, ?_, h'.short⟩
  · rw [List.flatten_append, List.append_assoc, h'.flatten, ← List.append_assoc, h.flatten]
  · intro b hb
    rcases List.mem_append.mp hb with hb | hb
    · exact h.full b hb
    · exact h'.full b hb

theorem length_flatten (h : ∀ block ∈ blocks, block.length = rate) :
    blocks.flatten.length = blocks.length * rate := by
  induction blocks with
  | nil => simp
  | cons b bs ih =>
    have hb : b.length = rate := h b List.mem_cons_self
    have hbs := ih fun c hc => h c (List.mem_cons_of_mem _ hc)
    rw [List.flatten_cons, List.length_append, hb, hbs, List.length_cons, Nat.succ_mul,
      Nat.add_comm]

/-- The length of the stream fixes the number of blocks and of elements
left over. -/
theorem length_eq (h : Chunked rate stream blocks rest) :
    blocks.length = stream.length / rate ∧ rest.length = stream.length % rate := by
  have hlen : stream.length = rest.length + rate * blocks.length := by
    rw [← h.flatten, List.length_append, length_flatten h.full, Nat.mul_comm, Nat.add_comm]
  have hpos : 0 < rate := Nat.lt_of_le_of_lt (Nat.zero_le _) h.short
  constructor
  · rw [hlen, Nat.add_mul_div_left _ _ hpos, Nat.div_eq_of_lt h.short, Nat.zero_add]
  · rw [hlen, Nat.add_mul_mod_self_left, Nat.mod_eq_of_lt h.short]

/-- **A stream is cut in one way.** -/
theorem unique (h : Chunked rate stream blocks rest) (h' : Chunked rate stream blocks' rest') :
    blocks = blocks' ∧ rest = rest' := by
  have hlen : blocks.length = blocks'.length := by rw [h.length_eq.1, h'.length_eq.1]
  have hflat : blocks.flatten ++ rest = blocks'.flatten ++ rest' := by rw [h.flatten, h'.flatten]
  have hsame : blocks.flatten.length = blocks'.flatten.length := by
    rw [length_flatten h.full, length_flatten h'.full, hlen]
  obtain ⟨hblocks, hrest⟩ := List.append_inj hflat hsame
  refine ⟨List.eq_iff_flatten_eq.2 ⟨hblocks, ?_⟩, hrest⟩
  rw [List.map_eq_replicate_iff.2 h.full, List.map_eq_replicate_iff.2 h'.full, hlen]

/-- **The blocks can be computed.** -/
theorem blocks_eq (h : Chunked rate stream blocks rest) : blocks = wholeBlocks rate stream := by
  rw [wholeBlocks, ← h.length_eq.1]
  refine List.ext_getElem (by simp) fun i hi _ => ?_
  have hpos := h.full
  rw [List.getElem_map, List.getElem_range, ← h.flatten]
  have hsplit : blocks = blocks.take i ++ (blocks[i] :: blocks.drop (i + 1)) := by
    rw [List.getElem_cons_drop, List.take_append_drop]
  have hfront : (blocks.take i).flatten.length = rate * i := by
    rw [length_flatten fun b hb => hpos b (List.mem_of_mem_take hb), List.length_take,
      Nat.min_eq_left (Nat.le_of_lt hi), Nat.mul_comm]
  conv_rhs =>
    rw [hsplit]
  rw [List.flatten_append, List.append_assoc, List.drop_left' hfront, List.flatten_cons,
    List.append_assoc, List.take_left' (hpos _ (List.getElem_mem hi))]

end Chunked

/-- **A stream behind padding**: whole blocks that start with the stream,
`n` of them more than the stream fills. -/
structure Padded (rate n : ℕ) (stream : List α) (blocks : List (List α)) : Prop where
  start : stream <+: blocks.flatten
  full : ∀ block ∈ blocks, block.length = rate
  count : blocks.length = stream.length / rate + n

namespace Chunked

variable {rate n : ℕ} {stream more rest : List α} {blocks padding : List (List α)}

/-- What is cut off is a whole number of blocks. -/
theorem length_stream (h : Chunked rate stream blocks rest) (more : List α) :
    (stream ++ more).length = (rest ++ more).length + rate * blocks.length := by
  have hlen : blocks.flatten.length = rate * blocks.length := by
    rw [length_flatten h.full, Nat.mul_comm]
  rw [← h.flatten]
  simp only [List.length_append, hlen]
  omega

/-- So the place in a block is the same before and after. -/
theorem length_mod (h : Chunked rate stream blocks rest) (more : List α) :
    (rest ++ more).length % rate = (stream ++ more).length % rate := by
  rw [h.length_stream, Nat.add_mul_mod_self_left]

/-- **Padding what is left over** and what comes behind it pads the whole
stream. -/
theorem pad (h : Chunked rate stream blocks rest) (hpad : Padded rate n (rest ++ more) padding) :
    Padded rate n (stream ++ more) (blocks ++ padding) := by
  have hpos : 0 < rate := Nat.lt_of_le_of_lt (Nat.zero_le _) h.short
  obtain ⟨tail, htail⟩ := hpad.start
  refine ⟨⟨tail, ?_⟩, ?_, ?_⟩
  · rw [List.flatten_append, ← htail, ← h.flatten]
    simp only [List.append_assoc]
  · intro b hb
    rcases List.mem_append.mp hb with hb | hb
    · exact h.full b hb
    · exact hpad.full b hb
  · rw [List.length_append, hpad.count, h.length_stream, Nat.add_mul_div_left _ _ hpos]
    omega

end Chunked

namespace Padded

variable {rate n k : ℕ} {stream stream' : List α} {blocks blocks' tail tail' : List (List α)}

/-- Streams that present the same blocks start alike, as far as both go. -/
theorem take_eq {n' : ℕ} (h : Padded rate n stream blocks) (h' : Padded rate n' stream' blocks')
    (htail : blocks ++ tail = blocks' ++ tail') (hk : k ≤ stream.length)
    (hk' : k ≤ stream'.length) : stream.take k = stream'.take k := by
  have hflat : blocks.flatten ++ tail.flatten = blocks'.flatten ++ tail'.flatten := by
    rw [← List.flatten_append, ← List.flatten_append, htail]
  obtain ⟨more, hmore⟩ := h.start
  obtain ⟨more', hmore'⟩ := h'.start
  have htake := congrArg (List.take k) hflat
  rw [← hmore, ← hmore', List.append_assoc, List.append_assoc,
    List.take_append_of_le_length hk, List.take_append_of_le_length hk'] at htake
  exact htake

/-- **Streams of one length that present the same blocks are equal**, and
so is what follows them. -/
theorem eq_of_length (h : Padded rate n stream blocks) (h' : Padded rate n stream' blocks')
    (htail : blocks ++ tail = blocks' ++ tail') (hlen : stream.length = stream'.length) :
    stream = stream' ∧ tail = tail' := by
  have htake := h.take_eq h' htail (Nat.le_refl _) (Nat.le_of_eq hlen)
  have hcount : blocks.length = blocks'.length := by rw [h.count, h'.count, hlen]
  refine ⟨?_, (List.append_inj htail hcount).2⟩
  rwa [List.take_length, hlen, List.take_length] at htake

end Padded

/-! ## Histories -/

/-- What a history of entries presents, one transcript after the other,
where an entry is worked on in the state the earlier ones left. -/
def transcript (code : S → E → List β) (next : S → E → S) : S → List E → List β
  | _, [] => []
  | s, e :: es => code s e ++ transcript code next (next s e) es

/-- **Histories are determined by their transcripts**, if the states met
keep an invariant under which no entry presents nothing, and an entry can
be read off the front of any transcript, from whatever states the two
readings start. -/
theorem transcript_injective {γ : Type*} {code : S → E → List β} {next : S → E → S}
    {view : E → γ} (Inv : S → Prop) {Ok : E → Prop}
    (hinv : ∀ s e, Inv s → Ok e → Inv (next s e))
    (hne : ∀ s e, Inv s → Ok e → code s e ≠ [])
    (hhead : ∀ s s' e e' t t', Inv s → Inv s' → Ok e → Ok e' →
      code s e ++ t = code s' e' ++ t' → view e = view e' ∧ t = t') :
    ∀ {s s' : S} {es es' : List E}, Inv s → Inv s' → (∀ e ∈ es, Ok e) → (∀ e ∈ es', Ok e) →
      transcript code next s es = transcript code next s' es' → es.map view = es'.map view := by
  intro s s' es
  induction es generalizing s s' with
  | nil =>
    intro es' _ hs' _ hes' h
    cases es' with
    | nil => rfl
    | cons e' es' =>
      -- The second history would present something, the first presents nothing.
      have hnil : code s' e' ++ transcript code next (next s' e') es' = [] := h.symm
      exact absurd (List.append_eq_nil_iff.mp hnil).1 (hne _ _ hs' (hes' e' List.mem_cons_self))
  | cons e es ih =>
    intro es' hs hs' hes hes' h
    have he := hes e List.mem_cons_self
    cases es' with
    | nil =>
      have hnil : code s e ++ transcript code next (next s e) es = [] := h
      exact absurd (List.append_eq_nil_iff.mp hnil).1 (hne _ _ hs he)
    | cons e' es' =>
      have he' := hes' e' List.mem_cons_self
      obtain ⟨hview, htail⟩ := hhead s s' e e' _ _ hs hs' he he' h
      have hrest := ih (hinv _ _ hs he) (hinv _ _ hs' he')
        (fun x hx => hes x (List.mem_cons_of_mem _ hx))
        (fun x hx => hes' x (List.mem_cons_of_mem _ hx)) htail
      rw [List.map_cons, List.map_cons, hview, hrest]

end Qsmp
