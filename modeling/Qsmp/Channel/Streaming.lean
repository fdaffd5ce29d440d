import Mathlib.Data.List.Forall2
import Qsmp.Channel.Keystream
import Qsmp.Channel.Sealing
/-!
# A cipher-text in pieces

The extended transform takes a large array in several calls, and makes or
checks the tag in the last one. Every call absorbs the counter it starts
from, so the tag fixes how the array was cut; and every call but the last
hands out what it has deciphered, before anything has been checked.
-/

namespace Qsmp

section Model

variable (K : Primitives)

/-- `qsc_rcs_extended_transform` -/
def qscRcsExtendedTransform (ctx : RcsState) (output input : Mem) (length : ℕ) (finalize : Bool) :
    RcsState × Mem × Bool :=
  let ctx := { ctx with counter := ctx.counter + UInt64.ofNat length }
  let ctx := rcsMacUpdate K ctx ctx.nonce.val
  if ctx.encrypt then
    let (ctx, cpt) := rcsCtrTransform K ctx (input.read 0 length)
    let output := output.write 0 cpt
    let ctx := rcsMacUpdate K ctx (output.read 0 length)
    if finalize then
      let (ctx, code) := rcsMacFinalize K ctx
      (ctx, output.write length code, true)
    else (ctx, output, true)
  else
    let ctx := rcsMacUpdate K ctx (input.read 0 length)
    if finalize then
      let (ctx, code) := rcsMacFinalize K ctx
      if qscIntutilsVerify code (input.read length ctx.ctype.macSize) = 0 then
        let (ctx, msg) := rcsCtrTransform K ctx (input.read 0 length)
        (ctx, output.write 0 msg, true)
      else (ctx, output, false)
    else
      let (ctx, msg) := rcsCtrTransform K ctx (input.read 0 length)
      (ctx, output.write 0 msg, true)

/-- The arguments of one call. -/
structure RcsPiece where
  output : Mem
  input : Mem
  length : ℕ

/-- The bytes a call is to transform. -/
def RcsPiece.text (p : RcsPiece) : Bytes := p.input.read 0 p.length

/-- The calls of a stream before the last: the state, and the output array
and the result of each. -/
def extendedTransforms : RcsState → List RcsPiece → RcsState × List (Mem × Bool)
  | ctx, [] => (ctx, [])
  | ctx, p :: rest =>
    let r := qscRcsExtendedTransform K ctx p.output p.input p.length false
    let rs := extendedTransforms r.1 rest
    (rs.1, r.2 :: rs.2)

/-- The last call. -/
def extendedFinish (ctx : RcsState) (p : RcsPiece) : RcsState × Mem × Bool :=
  qscRcsExtendedTransform K ctx p.output p.input p.length true

/-- The state after a piece of cipher-text. -/
def RcsState.absorb (ctx : RcsState) (cpt : Bytes) : RcsState :=
  { ctx with
    nonce := (rcsCtrTransform K ctx cpt).1.nonce
    counter := ctx.counter + UInt64.ofNat cpt.length
    kstate := qscKmacUpdate K.permute
      (qscKmacUpdate K.permute ctx.kstate ctx.ctype.rate ctx.nonce.val) ctx.ctype.rate cpt }

end Model

variable {K : Primitives} {ctx tx rx : RcsState} {output inp : Mem} {length : ℕ}

/-! ## One call -/

@[simp] theorem RcsPiece.length_text (p : RcsPiece) : p.text.length = p.length := Mem.length_read

/-- **A stream of one call is the plain transform.** -/
theorem qscRcsExtendedTransform_final :
    qscRcsExtendedTransform K ctx output inp length true =
      qscRcsTransform K ctx output inp length := rfl

/-- A call that encrypts, and is not the last. -/
theorem extendedTransform_encrypt (p : RcsPiece) {cpt : Bytes} (h : ctx.encrypt = true)
    (hcpt : (rcsCtrTransform K ctx p.text).2 = cpt) :
    qscRcsExtendedTransform K ctx p.output p.input p.length false =
      (ctx.absorb K cpt, p.output.write 0 cpt, true) := by
  have hlen : cpt.length = p.length := by
    rw [← hcpt, length_rcsCtrTransform, RcsPiece.length_text]
  have hread : (p.output.write 0 cpt).read 0 p.length = cpt := Mem.read_write_of_length hlen
  have hnonce : (rcsCtrTransform K ctx cpt).1.nonce =
      (rcsCtrTransform K ctx p.text).1.nonce := by
    rw [← hcpt, rcsCtrTransform_rcsCtrTransform]
  simp only [rcsCtrTransform, RcsPiece.text] at hcpt hnonce
  simp only [qscRcsExtendedTransform, rcsCtrTransform, rcsMacUpdate, h, if_true, hcpt, hread,
    ← hnonce, Bool.false_eq_true, if_false]
  simp only [RcsState.absorb, rcsCtrTransform, hlen, h]

/-- **A call that decrypts, and is not the last**, checks nothing. -/
theorem extendedTransform_decrypt (p : RcsPiece) {cpt : Bytes} (h : ctx.encrypt = false)
    (hcpt : p.text = cpt) :
    qscRcsExtendedTransform K ctx p.output p.input p.length false =
      (ctx.absorb K cpt, p.output.write 0 (rcsCtrTransform K ctx cpt).2, true) := by
  have hlen : cpt.length = p.length := by rw [← hcpt, RcsPiece.length_text]
  rw [RcsPiece.text] at hcpt
  simp only [qscRcsExtendedTransform, rcsCtrTransform, rcsMacUpdate, h, Bool.false_eq_true,
    if_false, hcpt]
  simp only [RcsState.absorb, rcsCtrTransform, hlen, h]

/-- The mirror of a cipher after a piece. -/
theorem RcsMirrors.absorb (h : RcsMirrors tx rx) (cpt : Bytes) :
    RcsMirrors (tx.absorb K cpt) (rx.absorb K cpt) := by
  obtain ⟨hctype, hschedule, hkstate, hnonce, hcounter, hencrypts, hdecrypts⟩ := h
  refine ⟨hctype, hschedule, ?_, ?_, ?_, hencrypts, hdecrypts⟩
  · simp only [RcsState.absorb, hkstate, hctype, hnonce]
  · simp only [RcsState.absorb, rcsCtrTransform, hschedule, hnonce]
  · simp only [RcsState.absorb, hcounter]

/-- The counter after a piece depends on its length alone. -/
theorem absorb_nonce {cpt : Bytes} : (ctx.absorb K cpt).nonce =
    rcsNextNonce^[CounterMode.startedBlocks rcsBlockSize cpt.length] ctx.nonce := by
  rw [RcsState.absorb, rcsCtrTransform_eq]

/-! ## One piece at both ends -/

/-- Two ends at one place of the key stream, whatever they have absorbed. -/
structure Aligned (tx rx : RcsState) : Prop where
  schedule : tx.schedule = rx.schedule
  nonce : tx.nonce = rx.nonce
  encrypts : tx.encrypt = true
  decrypts : rx.encrypt = false

theorem RcsMirrors.aligned (h : RcsMirrors tx rx) : Aligned tx rx :=
  ⟨h.schedule, h.nonce, h.encrypts, h.decrypts⟩

/-- Pieces of one length leave them aligned. -/
theorem Aligned.absorb (h : Aligned tx rx) {cpt cpt' : Bytes} (hlen : cpt'.length = cpt.length) :
    Aligned (tx.absorb K cpt) (rx.absorb K cpt') where
  schedule := h.schedule
  nonce := by rw [absorb_nonce, absorb_nonce, h.nonce, hlen]
  encrypts := h.encrypts
  decrypts := h.decrypts

/-- The key stream has a byte for every byte of the input. -/
theorem length_le_keystream {input : Bytes} :
    input.length ≤ ((rcsCtrTransformCounters ctx input).flatMap
      (rcsKeystream K ctx.schedule)).length := by
  have hlen : (rcsCtrTransform K ctx input).2.length = input.length := length_rcsCtrTransform
  rw [rcsCtrTransform_eq, length_xorBytes] at hlen
  omega

/-- **A piece that is not the one that was sent** comes out as the plain
text with the bits flipped in which the two differ. -/
theorem Aligned.ctrTransform (h : Aligned tx rx) {plain cpt' : Bytes}
    (hlen : cpt'.length = plain.length) :
    (rcsCtrTransform K rx cpt').2 =
      xorBytes (xorBytes (rcsCtrTransform K tx plain).2 cpt') plain := by
  have hcounters : rcsCtrTransformCounters rx cpt' = rcsCtrTransformCounters tx plain := by
    rw [rcsCtrTransformCounters_eq, rcsCtrTransformCounters_eq, hlen, h.nonce]
  rw [rcsCtrTransform_eq, rcsCtrTransform_eq, hcounters, ← h.schedule]
  exact (xorBytes_difference length_le_keystream hlen).symm

/-! ## The pieces before the last -/

/-- The sender's calls: each writes its cipher-text. -/
theorem extendedTransforms_encrypt : ∀ (ps : List RcsPiece) {tx : RcsState}, tx.encrypt = true →
    (∀ s ∈ (extendedTransforms K tx ps).2, s.2 = true) ∧
      (extendedTransforms K tx ps).1.encrypt = true ∧
      (extendedTransforms K tx ps).1.ctype = tx.ctype ∧
      (extendedTransforms K tx ps).2.length = ps.length
  | [], _, h => ⟨fun s hs => absurd hs List.not_mem_nil, h, rfl, rfl⟩
  | p :: ps, tx, h => by
    have hcall := extendedTransform_encrypt (K := K) p h rfl
    have hnext : (tx.absorb K (rcsCtrTransform K tx p.text).2).encrypt = true := h
    rw [extendedTransforms, hcall]
    obtain ⟨hall, henc, htype, hlen⟩ := extendedTransforms_encrypt ps hnext
    refine ⟨fun s hs => ?_, henc, htype, congrArg (· + 1) hlen⟩
    rcases List.mem_cons.1 hs with rfl | hs
    · rfl
    · exact hall s hs

/-- What the receiver's call makes of a piece, by the plain text and the
cipher-text that was sent. -/
def releasedAs (p : RcsPiece × Mem × Bool) (p' : RcsPiece) : Mem × Bool :=
  (p'.output.write 0 (xorBytes (xorBytes (p.2.1.read 0 p.1.length) p'.text) p.1.text), true)

/-- **Every piece before the last is handed out**, whatever it is. -/
theorem extendedTransforms_released : ∀ {ps ps' : List RcsPiece} {tx rx : RcsState},
    Aligned tx rx → List.Forall₂ (fun p p' => p'.length = p.length) ps ps' →
    (extendedTransforms K rx ps').2 =
      List.zipWith releasedAs (ps.zip (extendedTransforms K tx ps).2) ps' ∧
      Aligned (extendedTransforms K tx ps).1 (extendedTransforms K rx ps').1
  | [], [], _, _, h, _ => ⟨rfl, h⟩
  | p :: ps, p' :: ps', tx, rx, h, hlens => by
    obtain ⟨hlen, hlens⟩ := List.forall₂_cons.1 hlens
    obtain ⟨cpt, hcpt⟩ : ∃ cpt, cpt = (rcsCtrTransform K tx p.text).2 := ⟨_, rfl⟩
    have hsend := extendedTransform_encrypt p h.encrypts hcpt.symm
    have hreceive := extendedTransform_decrypt (K := K) p' h.decrypts rfl
    have hplain : p.text.length = p.length := p.length_text
    have hforged : p'.text.length = p.text.length := by rw [hplain, ← hlen, p'.length_text]
    have hsent : cpt.length = p.length := by rw [hcpt, length_rcsCtrTransform, hplain]
    have hread : (p.output.write 0 cpt).read 0 p.length = cpt := Mem.read_write_of_length hsent
    have hnext : Aligned (tx.absorb K cpt) (rx.absorb K p'.text) :=
      h.absorb (by rw [hforged, hplain, hsent])
    obtain ⟨hrest, haligned⟩ := extendedTransforms_released hnext hlens
    rw [extendedTransforms, extendedTransforms, hsend, hreceive]
    refine ⟨?_, haligned⟩
    rw [List.zip_cons_cons, List.zipWith_cons_cons, ← hrest]
    dsimp only [releasedAs]
    rw [hread, hcpt, ← h.ctrTransform hforged]

/-- The receiver has been given what a call of the sender wrote. -/
def CarriesPiece (s : Mem × Bool) (p' : RcsPiece) : Prop := p'.text = s.1.read 0 p'.length

/-- **Pieces that arrive as they were sent are opened**, and the ends stay
mirrored. -/
theorem extendedTransforms_opened : ∀ {ps ps' : List RcsPiece} {tx rx : RcsState},
    RcsMirrors tx rx → List.Forall₂ (fun p p' => p'.length = p.length) ps ps' →
    List.Forall₂ CarriesPiece (extendedTransforms K tx ps).2 ps' →
    (extendedTransforms K rx ps').2 =
      List.zipWith (fun p p' => (p'.output.write 0 p.text, true)) ps ps' ∧
      RcsMirrors (extendedTransforms K tx ps).1 (extendedTransforms K rx ps').1
  | [], [], _, _, h, _, _ => ⟨rfl, h⟩
  | p :: ps, p' :: ps', tx, rx, h, hlens, hcarry => by
    obtain ⟨hlen, hlens⟩ := List.forall₂_cons.1 hlens
    obtain ⟨cpt, hcpt⟩ : ∃ cpt, cpt = (rcsCtrTransform K tx p.text).2 := ⟨_, rfl⟩
    have hsend : extendedTransforms K tx (p :: ps) =
        ((extendedTransforms K (tx.absorb K cpt) ps).1,
          (p.output.write 0 cpt, true) :: (extendedTransforms K (tx.absorb K cpt) ps).2) := by
      rw [extendedTransforms, extendedTransform_encrypt p h.encrypts hcpt.symm]
    rw [hsend] at hcarry ⊢
    obtain ⟨hfirst, hcarry⟩ := List.forall₂_cons.1 hcarry
    have hplain : p.text.length = p.length := p.length_text
    have hsent : cpt.length = p'.length := by rw [hcpt, length_rcsCtrTransform, hplain, hlen]
    have htext : p'.text = cpt := hfirst.trans (Mem.read_write_of_length hsent)
    have hreceive := extendedTransform_decrypt (K := K) p' h.decrypts htext
    have hback : (rcsCtrTransform K rx cpt).2 = p.text := by
      rw [h.eq_rx, hcpt]
      exact congrArg Prod.snd rcsCtrTransform_rcsCtrTransform
    obtain ⟨hrest, hmirrors⟩ := extendedTransforms_opened (h.absorb cpt) hlens hcarry
    rw [extendedTransforms, hreceive]
    refine ⟨?_, hmirrors⟩
    rw [List.zipWith_cons_cons, hback, ← hrest]

/-- The cipher-text of a stream before its last call. -/
def pieceTexts (ps : List RcsPiece) (results : List (Mem × Bool)) : Bytes :=
  (List.zipWith (fun p (s : Mem × Bool) => s.1.read 0 p.length) ps results).flatten

/-- **Pieces of whole blocks are one cipher-text**: what the calls write,
with what the last one deciphers, is the plain transform of the whole. -/
theorem extendedTransforms_whole (rest : Bytes) : ∀ {ps : List RcsPiece} {tx : RcsState},
    tx.encrypt = true → (∀ p ∈ ps, rcsBlockSize ∣ p.length) →
    pieceTexts ps (extendedTransforms K tx ps).2 ++
        (rcsCtrTransform K (extendedTransforms K tx ps).1 rest).2 =
      (rcsCtrTransform K tx ((ps.map RcsPiece.text).flatten ++ rest)).2
  | [], _, _, _ => rfl
  | p :: ps, tx, h, hblocks => by
    obtain ⟨cpt, hcpt⟩ : ∃ cpt, cpt = (rcsCtrTransform K tx p.text).2 := ⟨_, rfl⟩
    have hsend := extendedTransform_encrypt p h hcpt.symm
    obtain ⟨blocks, hlen⟩ := hblocks p (List.mem_cons_self ..)
    have hplain : p.text.length = rcsBlockSize * blocks := p.length_text.trans hlen
    have hsent : cpt.length = p.length := by rw [hcpt, length_rcsCtrTransform, p.length_text]
    have hread : (p.output.write 0 cpt).read 0 p.length = cpt := Mem.read_write_of_length hsent
    have hnext : (tx.absorb K cpt).encrypt = true := h
    have hrest := extendedTransforms_whole rest hnext
      fun q hq => hblocks q (List.mem_cons_of_mem p hq)
    have hnonce : (tx.absorb K cpt).nonce = (rcsCtrTransform K tx p.text).1.nonce := by
      rw [absorb_nonce, rcsCtrTransform_eq, hcpt, length_rcsCtrTransform]
    have hjoin : (rcsCtrTransform K tx (p.text ++ ((ps.map RcsPiece.text).flatten ++ rest))).2 =
        cpt ++ (rcsCtrTransform K (tx.absorb K cpt)
          ((ps.map RcsPiece.text).flatten ++ rest)).2 := by
      rw [rcsCtrTransform] at hcpt hnonce ⊢
      rw [CounterMode.transform_append (by decide) hplain, rcsCtrTransform, hnonce, hcpt]
      rfl
    rw [extendedTransforms, hsend, List.map_cons, List.flatten_cons, List.append_assoc, hjoin,
      ← hrest, pieceTexts, List.zipWith_cons_cons, List.flatten_cons, hread, List.append_assoc]
    rfl

/-! ## Whole streams -/

/-- **A stream that arrives as it was sent.** Between two ends that mirror
each other every call of either returns true, each piece is opened to its
plain text, and the ends mirror each other behind the last call. If all
pieces but the last are whole blocks, the cipher-text is the one a single
call makes of the whole text. -/
theorem stream_round_trip (h : RcsMirrors tx rx) (ps ps' : List RcsPiece) (last last' : RcsPiece)
    (hlen : List.Forall₂ (fun p p' => p'.length = p.length) ps ps')
    (hlast : last'.length = last.length)
    (hcarry : List.Forall₂ CarriesPiece (extendedTransforms K tx ps).2 ps')
    (htag : last'.input.read 0 (last.length + tx.ctype.macSize) =
      (extendedFinish K (extendedTransforms K tx ps).1 last).2.1.read 0
        (last.length + tx.ctype.macSize)) :
    let sent := extendedTransforms K tx ps
    let closed := extendedFinish K sent.1 last
    let got := extendedTransforms K rx ps'
    let opened := extendedFinish K got.1 last'
    (∀ s ∈ sent.2, s.2 = true) ∧ closed.2.2 = true ∧
      got.2 = List.zipWith (fun p p' => (p'.output.write 0 p.text, true)) ps ps' ∧
      opened.2 = (last'.output.write 0 last.text, true) ∧ RcsMirrors closed.1 opened.1 ∧
      ((∀ p ∈ ps, rcsBlockSize ∣ p.length) →
        pieceTexts ps sent.2 ++ closed.2.1.read 0 last.length =
          (rcsCtrTransform K tx ((ps.map RcsPiece.text).flatten ++ last.text)).2) := by
  obtain ⟨hall, henc, htype, -⟩ := extendedTransforms_encrypt (K := K) ps h.encrypts
  obtain ⟨hgot, hmirrors⟩ := extendedTransforms_opened h hlen hcarry
  obtain ⟨mid, hmid⟩ : ∃ mid, mid = (extendedTransforms K tx ps).1 := ⟨_, rfl⟩
  rw [← hmid] at henc htype hmirrors htag
  have hplain : last.text.length = last.length := last.length_text
  have hclose : extendedFinish K mid last =
      (mid.after K last.text, last.output.write 0 (mid.sealed K last.text), true) :=
    RcsState.transform_seals henc rfl
  have hsealed : (mid.sealed K last.text).length = last.length + tx.ctype.macSize := by
    rw [RcsState.length_sealed, hplain, htype]
  rw [hclose, Mem.read_write_of_length hsealed] at htag
  have hopen : extendedFinish K (extendedTransforms K rx ps').1 last' =
      ({ mid.after K last.text with encrypt := false }, last'.output.write 0 last.text, true) := by
    rw [extendedFinish, qscRcsExtendedTransform_final, hlast]
    exact RcsState.transform_opens hmirrors hplain (htype ▸ htag)
  dsimp only
  rw [← hmid, hclose, hopen]
  refine ⟨hall, rfl, hgot, rfl, .of_encrypt henc, fun hblocks => ?_⟩
  have hwhole := extendedTransforms_whole (K := K) last.text h.encrypts hblocks
  have hcpt : (last.output.write 0 (mid.sealed K last.text)).read 0 last.length =
      (rcsCtrTransform K mid last.text).2 := by
    rw [Mem.read_write_start (by omega), RcsState.sealed,
      List.take_left' (by rw [length_rcsCtrTransform, hplain])]
  rw [hcpt, hmid]
  exact hwhole

/-- A cleared cipher that encrypts. -/
def RcsState.cleared : RcsState := { qscRcsDispose with encrypt := true }

/-- So many bytes seven. -/
def RcsPiece.sevens (n : ℕ) : RcsPiece := ⟨Mem.zero, fun _ => 7, n⟩

/-- A block, and three bytes behind it. -/
theorem stream_round_trip_two :
    let sent := extendedTransforms .plain .cleared [.sevens 32]
    let closed := extendedFinish .plain sent.1 (.sevens 3)
    let first := (qscRcsExtendedTransform .plain .cleared Mem.zero (fun _ => 7) 32 false).2.1
    let got := extendedTransforms .plain { RcsState.cleared with encrypt := false }
      [⟨Mem.zero, first, 32⟩]
    let opened := extendedFinish .plain got.1 ⟨Mem.zero, closed.2.1, 3⟩
    got.2 = [(Mem.zero.write 0 (RcsPiece.sevens 32).text, true)] ∧
      opened.2 = (Mem.zero.write 0 (RcsPiece.sevens 3).text, true) ∧
      pieceTexts [.sevens 32] sent.2 ++ closed.2.1.read 0 3 =
        (rcsCtrTransform .plain .cleared
          ((RcsPiece.sevens 32).text ++ [] ++ (RcsPiece.sevens 3).text)).2 := by
  obtain ⟨-, -, hgot, hopened, -, hwhole⟩ := stream_round_trip (K := .plain)
    (RcsMirrors.of_encrypt (rfl : RcsState.cleared.encrypt = true)) [.sevens 32]
    [⟨Mem.zero, (qscRcsExtendedTransform .plain .cleared Mem.zero (fun _ => 7) 32 false).2.1, 32⟩]
    (.sevens 3) ⟨Mem.zero, (extendedFinish .plain
      (extendedTransforms .plain .cleared [.sevens 32]).1 (.sevens 3)).2.1, 3⟩
    (.cons rfl .nil) rfl (.cons rfl .nil) rfl
  exact ⟨hgot, hopened, hwhole fun p hp => List.mem_singleton.1 hp ▸ ⟨1, rfl⟩⟩

/-- **A stream that was tampered with** is refused in the last call or not
at all. Whatever the pieces before it are, as long as they have the right
lengths, each comes out as its plain text with the bits flipped in which it
differs from what was sent, and the call returns true. The last call
returns true exactly if it is given the tag of all it has absorbed;
otherwise it leaves its own array alone. -/
theorem stream_released (h : RcsMirrors tx rx) (ps ps' : List RcsPiece) (last' : RcsPiece)
    (hlen : List.Forall₂ (fun p p' => p'.length = p.length) ps ps') :
    let got := extendedTransforms K rx ps'
    let opened := extendedFinish K got.1 last'
    got.2 = List.zipWith releasedAs (ps.zip (extendedTransforms K tx ps).2) ps' ∧
      (opened.2.2 = true ↔ (rcsAuthenticate K got.1 last'.text).2 =
        last'.input.read last'.length got.1.ctype.macSize) ∧
      (opened.2.2 = false → opened.2.1 = last'.output) := by
  obtain ⟨hgot, haligned⟩ := extendedTransforms_released (K := K) h.aligned hlen
  have hopen : qscRcsTransform K (extendedTransforms K rx ps').1 last'.output last'.input
      last'.length = _ := qscRcsTransform_decrypt haligned.decrypts rfl
  refine ⟨hgot, ?_, ?_⟩
  all_goals rw [extendedFinish, qscRcsExtendedTransform_final, hopen]; split
  · rename_i htag
    exact ⟨fun _ => htag, fun _ => rfl⟩
  · rename_i htag
    exact ⟨fun hfalse => absurd hfalse Bool.false_ne_true, fun heq => absurd heq htag⟩
  · exact fun hfalse => absurd hfalse.symm Bool.false_ne_true
  · exact fun _ => rfl

/-- Zeros in the place of a block that was sent. -/
theorem stream_released_zeros :
    let got := extendedTransforms .plain { RcsState.cleared with encrypt := false }
      [⟨Mem.zero, Mem.zero, 32⟩]
    got.2 = List.zipWith releasedAs
      ([RcsPiece.sevens 32].zip (extendedTransforms .plain .cleared [.sevens 32]).2)
      [⟨Mem.zero, Mem.zero, 32⟩] :=
  (stream_released (K := .plain) (RcsMirrors.of_encrypt (rfl : RcsState.cleared.encrypt = true))
    [.sevens 32] [⟨Mem.zero, Mem.zero, 32⟩] (.sevens 3) (.cons rfl .nil)).1

end Qsmp
