import KvmServer.Codec.NcrushDecoder
import KvmServer.Codec.NcrushMatch

/-! # The NCRUSH encoder

The packet is in the history before its first byte is encoded.  The loop invariant says that the
tokens sent so far describe the part of the packet consumed so far. -/

namespace KvmServer.Codec
open Lib List

structure NcrushEntered (base : NcrushContext) (start : Nat) (packet : List UInt8) : Prop where
  tables : base.Generated
  size : base.historyBufferSize = 65536
  chains : Chains base.historyBuffer base.hashTable base.matchTable (start + packet.length - 1)
  held : block base.historyBuffer start packet.length = packet
  pointer : base.historyPtr = start + packet.length
  small : start + packet.length < 65529

def NcrushContext.atTokens (base : NcrushContext) (start : Nat) (tokens : List (LzToken UInt8)) :
    NcrushContext :=
  { base with offsetCache := ncrushTokensCache base.offsetCache start tokens }

structure NcrushEncodes (base : NcrushContext) (start : Nat) (packet : List UInt8) (s : NcrushEncoder)
    (tokens : List (LzToken UInt8)) : Prop where
  context : s.ncrush = base.atTokens start tokens
  lower : start ≤ s.historyPtr
  upper : s.historyPtr + s.srcPtr.length = start + packet.length
  source : s.srcPtr = block base.historyBuffer s.historyPtr s.srcPtr.length
  described : Describes NcrushAllowed base.historyBuffer start tokens
    (block base.historyBuffer start (s.historyPtr - start))
  sink : s.sink.Holds (ncrushTokensBits base.offsetCache start tokens)

namespace NcrushEncodes

variable {base : NcrushContext} {st : Nat} {packet : List UInt8} {s s' : NcrushEncoder}
  {toks : List (LzToken UInt8)} {tok : LzToken UInt8}

theorem position (inv : NcrushEncodes base st packet s toks) :
    st + (toks.map LzToken.advance).sum = s.historyPtr := by
  rw [inv.described.advance_eq, block_length, Nat.add_sub_cancel' inv.lower]

theorem emit (inv : NcrushEncodes base st packet s toks) (fits : tok.advance ≤ s.srcPtr.length)
    (desc : Describes NcrushAllowed base.historyBuffer s.historyPtr [tok]
      (block base.historyBuffer s.historyPtr tok.advance))
    (ctx : s'.ncrush = { base with
      offsetCache := ncrushTokenCache (ncrushTokensCache base.offsetCache st toks) s.historyPtr tok })
    (ptr : s'.historyPtr = s.historyPtr + tok.advance)
    (src : s'.srcPtr = s.srcPtr.drop tok.advance)
    (sink : s'.sink.Holds (ncrushTokensBits base.offsetCache st toks ++
      ncrushTokenBits (ncrushTokensCache base.offsetCache st toks) s.historyPtr tok)) :
    NcrushEncodes base st packet s' (toks ++ [tok]) := by
  have position := inv.position
  have lo := inv.lower
  have up := inv.upper
  have length : s'.srcPtr.length = s.srcPtr.length - tok.advance := by rw [src, length_drop]
  refine ⟨?_, by omega, by omega, ?_, ?_, ?_⟩
  · rw [ctx, NcrushContext.atTokens, ncrushTokensCache_append, position]
    rfl
  · have cells := inv.source
    rw [← Nat.add_sub_cancel' fits, block_add] at cells
    rw [length, ptr, src, cells, drop_left' (block_length _ _ _)]
    simp
  · have used : s'.historyPtr - st = (s.historyPtr - st) + tok.advance := by omega
    rw [used, block_add]
    apply inv.described.append
    rw [blit_block, block_length, Nat.add_sub_cancel' lo]
    exact desc
  · rw [ncrushTokensBits_append, position]
    simpa [ncrushTokensBits] using sink

end NcrushEncodes

/-! ## One round -/

section
variable {base : NcrushContext} {st : Nat} {packet : List UInt8} {s : NcrushEncoder}
  {toks : List (LzToken UInt8)}

variable (ent : NcrushEntered base st packet) (inv : NcrushEncodes base st packet s toks)
include ent inv

theorem round_search (more : 2 < s.srcPtr.length) :
    (s.ncrush.matchTable s.historyPtr = 0 ∧
      ncrushFindBestMatch s.ncrush s.historyPtr = (s.ncrush.matchTable, none)) ∨
      s.ncrush.matchTable s.historyPtr ≠ 0 ∧ ∃ length offset,
        IsMatch base.historyBuffer s.historyPtr base.historyPtr length offset ∧
        ncrushFindBestMatch s.ncrush s.historyPtr = (s.ncrush.matchTable, some (length, offset)) := by
  have ptr := ent.pointer
  have up := inv.upper
  rw [inv.context]
  by_cases linked : base.matchTable s.historyPtr = 0
  · refine Or.inl ⟨linked, ?_⟩
    exact if_pos linked
  refine Or.inr ⟨linked, ?_⟩
  exact @findBestMatch_spec (base.atTokens st toks) _ _ ent.chains linked
    (by change _ ≤ base.historyPtr; omega)

variable {sink : NCrushSink} {len offset : Nat}

omit ent in
theorem ncrushEncodes_literal {lit : UInt8} {src : List UInt8} (pre : s.srcPtr = lit :: src)
    (sinkH : sink.Holds (ncrushTokensBits base.offsetCache st toks ++ lecCode.spell lit.toNat)) :
    NcrushEncodes base st packet
    { ncrush := s.ncrush, historyPtr := s.historyPtr + 1, srcPtr := src, sink := sink }
      (toks ++ [.literal lit]) := by
  have cells := inv.source
  rw [pre, length_cons, block] at cells
  refine inv.emit ?_ ?_ inv.context rfl ?_ sinkH
  · rw [pre]
    exact Nat.succ_le_succ (Nat.zero_le _)
  · rw [(cons.inj cells).1]
    exact .literal .nil
  rw [pre]
  rfl

theorem ncrushEncodes_copy (isMatch : IsMatch base.historyBuffer s.historyPtr base.historyPtr len offset)
    (sinkH : sink.Holds (ncrushTokensBits base.offsetCache st toks ++
      copyBits s.ncrush.offsetCache (s.historyPtr - offset) len)) :
    NcrushEncodes base st packet
      { ncrush := { s.ncrush with offsetCache := s.ncrush.offsetCache.use (s.historyPtr - offset) }
        historyPtr := s.historyPtr + len
        srcPtr := s.srcPtr.drop len
        sink := sink }
      (toks ++ [.copy offset len]) := by
  have ptr := ent.pointer
  have up := inv.upper
  have inside := isMatch.inside
  rw [inv.context] at sinkH ⊢
  refine inv.emit ?_ ?_ rfl rfl rfl sinkH
  · change len ≤ _
    omega
  have always :
      NcrushAllowed s.historyPtr offset (block base.historyBuffer s.historyPtr len).length := by
    rw [block_length]
    exact ⟨isMatch.behind, isMatch.least, isMatch.most⟩
  have token := Describes.copy (repeats_block isMatch.same) always .nil
  rwa [block_length, append_nil] at token

theorem sendLiteral_spec (more : 2 < s.srcPtr.length) (dstEnd : Nat) :
    ncrushSendLiteral dstEnd s.ncrush s = .error (.flush s.ncrush) ∨ ∃ s' token,
    ncrushSendLiteral dstEnd s.ncrush s = .ok s' ∧
        NcrushEncodes base st packet s' (toks ++ [token]) ∧ s'.srcPtr.length < s.srcPtr.length := by
  have up := inv.upper
  have lt := ent.small
  unfold ncrushSendLiteral
  cases pre : s.srcPtr with
  | nil =>
    rw [pre] at more
    cases more
  | cons lit _ =>
    have byte : lit.toNat < 256 := lit.toNat_lt
    obtain ⟨sink, written, h⟩ :=
      writeLEC_ok inv.sink (by omega : lit.toNat < 294) (by omega : 13 ≤ 15) (-1006)
    dsimp only
    by_cases full : s.sink.dst.length + 2 > dstEnd
    · exact Or.inl (if_pos full)
    rw [if_neg full, written]
    dsimp only
    rw [if_neg (by omega)]
    exact Or.inr ⟨_, _, rfl, ncrushEncodes_literal inv pre h, Nat.lt_succ_self _⟩

theorem ncrushSendMatch_spec
    (isMatch : IsMatch base.historyBuffer s.historyPtr base.historyPtr len offset) (dstEnd : Nat) :
    ncrushSendMatch dstEnd s.ncrush s (s.historyPtr - offset) len = .error (.flush s.ncrush) ∨
      ∃ s' token, ncrushSendMatch dstEnd s.ncrush s (s.historyPtr - offset) len = .ok s' ∧
        NcrushEncodes base st packet s' (toks ++ [token]) ∧ s'.srcPtr.length < s.srcPtr.length := by
  have up := inv.upper
  have lt := ent.small
  have ptr := ent.pointer
  have ge := isMatch.least
  have most := isMatch.most
  have inside := isMatch.inside
  have tbls : s.ncrush.Generated := by
    rw [inv.context]
    exact ent.tables
  obtain ⟨sink, written, h⟩ :=
    writeMatch_ok tbls inv.sink (by omega : s.historyPtr - offset < 65536) ge (by omega)
  unfold ncrushSendMatch
  by_cases full : s.sink.dst.length + 8 > dstEnd
  · exact Or.inl (if_pos full)
  rw [if_neg full, written]
  dsimp only
  rw [if_neg (by omega)]
  refine Or.inr ⟨_, _, rfl, ncrushEncodes_copy ent inv isMatch h, ?_⟩
  rw [length_drop]
  omega

theorem ncrushCompressStep_spec (more : 2 < s.srcPtr.length) (dstEnd : Nat) :
    ncrushCompressStep dstEnd s = .error (.flush s.ncrush) ∨ ∃ s' token,
    ncrushCompressStep dstEnd s = .ok s' ∧
        NcrushEncodes base st packet s' (toks ++ [token]) ∧ s'.srcPtr.length < s.srcPtr.length := by
  have up := inv.upper
  have lt := ent.small
  have ptr : s.ncrush.historyPtr = st + packet.length := by
    rw [inv.context]
    exact ent.pointer
  have size : s.ncrush.historyBufferSize = 65536 := by
    rw [inv.context]
    exact ent.size
  unfold ncrushCompressStep
  dsimp only
  rw [if_neg (by omega), if_neg (by omega)]
  cases round_search ent inv more with
  | inl unlinked =>
    rw [unlinked.2, if_pos unlinked.1]
    dsimp only
    exact sendLiteral_spec ent inv more dstEnd
  | inr linked =>
    obtain ⟨linked, len, offset, isMatch, search⟩ := linked
    have past := isMatch.behind
    have ge := isMatch.least
    have copyOff : (s.ncrush.historyBufferSize - 1) &&& (s.historyPtr + 2 ^ 64 - offset) =
        s.historyPtr - offset := by
      rw [size, Nat.and_comm, show 65536 - 1 = 2 ^ 16 - 1 from rfl, Nat.and_two_pow_sub_one_eq_mod]
      omega
    rw [search, if_neg linked]
    dsimp only
    rw [copyOff]
    by_cases short : len = 2 ∧ s.historyPtr - offset ≥ 64
    · rw [if_pos short, if_pos rfl]
      exact sendLiteral_spec ent inv more dstEnd
    rw [if_neg short, if_neg (by omega)]
    exact ncrushSendMatch_spec ent inv isMatch dstEnd

theorem ncrushCompressLoop_spec (dstEnd : Nat) {fuel : Nat} (room : s.srcPtr.length ≤ fuel) :
    (∃ tokens', ncrushCompressLoop dstEnd fuel s = .error (.flush (base.atTokens st tokens'))) ∨
      ∃ s' tokens', ncrushCompressLoop dstEnd fuel s = .ok s' ∧
      NcrushEncodes base st packet s' tokens' := by
  induction fuel generalizing s toks with
  | zero => exact Or.inr ⟨s, toks, rfl, inv⟩
  | succ fuel ih =>
    rw [ncrushCompressLoop]
    by_cases more : 2 < s.srcPtr.length
    · rw [if_pos more]
      cases ncrushCompressStep_spec ent inv more dstEnd with
      | inl flush =>
        rw [flush, inv.context]
        exact Or.inl ⟨toks, rfl⟩
      | inr sent =>
        obtain ⟨s', _, step, inv', _⟩ := sent
        rw [step]
        exact ih inv' (by omega)
    · rw [if_neg more]
      exact Or.inr ⟨s, toks, rfl, inv⟩

end

theorem ncrushTokensCache_literals (cache : OffsetCache) (dst : Nat) (xs : List UInt8) :
    ncrushTokensCache cache dst (xs.map .literal) = cache := by
  induction xs generalizing dst with
  | nil => rfl
  | cons x xs ih =>
    exact ih _

variable {sink : NCrushSink} {bits : List Bool} {tokens : List (LzToken UInt8)}

theorem ncrushCompressTail_spec (h : sink.Holds bits)
    (dstEnd : Nat) (nc : NcrushContext) (cache : OffsetCache) (src : List UInt8) (histPtr : Nat) :
    ncrushCompressTail dstEnd nc src histPtr sink = .error (.flush nc) ∨
      ∃ sink', ncrushCompressTail dstEnd nc src histPtr sink = .ok (histPtr + src.length, sink') ∧
        sink'.Holds (bits ++ ncrushTokensBits cache histPtr (src.map .literal)) := by
  induction src generalizing sink bits histPtr with
  | nil =>
    refine Or.inr ⟨sink, rfl, ?_⟩
    simpa [ncrushTokensBits] using h
  | cons lit src ih =>
    have byte : lit.toNat < 256 := lit.toNat_lt
    obtain ⟨_, written, h₁⟩ := writeLEC_ok h (by omega : lit.toNat < 294) (by omega : 13 ≤ 15) (-1014)
    rw [ncrushCompressTail]
    by_cases full : sink.dst.length + 2 > dstEnd
    · exact Or.inl (if_pos full)
    rw [if_neg full, written]
    dsimp only
    cases ih h₁ (histPtr + 1) with
    | inl flush => exact Or.inl flush
    | inr sent =>
      obtain ⟨sink', tail, h'⟩ := sent
      refine Or.inr ⟨sink', ?_, ?_⟩
      · rw [tail, length_cons, add_assoc histPtr, add_comm 1]
      rw [map_cons, ncrushTokensBits, ncrushTokenBits, ncrushTokenCache, LzToken.advance, ← append_assoc]
      exact h'

variable {packet : List UInt8} {base : NcrushContext} {start : Nat}

theorem ncrushTokensBits_length {mem : Mem UInt8} {dst : Nat}
    (desc : Describes NcrushAllowed mem dst tokens packet)
    (ne : packet ≠ []) (lt : dst < 65536) (cache : OffsetCache) :
    5 ≤ (ncrushTokensBits cache dst tokens).length := by
  cases desc with
  | nil => exact absurd rfl ne
  | literal rest =>
    rename_i x tokens packet
    have byte : x.toNat < 256 := x.toNat_lt
    have sym := lecCode_spell_length (by omega : x.toNat < 294)
    rw [ncrushTokensBits, length_append, ncrushTokenBits]
    omega
  | copy reps always rest =>
    rename_i src _ tokens packet
    have sym := lecCode_spell_length (@copySymbol_range cache (dst - src) (by omega)).2
    rw [ncrushTokensBits, length_append, ncrushTokenBits, copyBits, length_append, length_append]
    omega

/-! ## The whole packet -/

structure NcrushSent (base : NcrushContext) (start : Nat) (packet : List UInt8) (flags : Nat)
    (result : NcrushCompressed) (tokens : List (LzToken UInt8)) : Prop where
  described : Describes NcrushAllowed base.historyBuffer start tokens packet
  context : result.ncrush = { base.atTokens start tokens with historyOffset := start + packet.length }
  status : result.status = 1
  flags : result.flags = PACKET_COMPRESSED ||| 2 ||| flags
  stream : ∃ padding, lsbByteBits result.dstData =
    ncrushTokensBits base.offsetCache start tokens ++ (lecCode.spell 256 ++ padding)
  least : 4 ≤ result.dstData.length
  most : result.dstData.length ≤ packet.length

theorem spell_endOfStream : (lecCode.spell 256).length = 13 := by
  decide +kernel

theorem nCrushWriteFinish_spec {sink' : NCrushSink} (h : sink.Holds bits)
    (mark : sink'.Holds (bits ++ lecCode.spell 256)) (long : 5 ≤ bits.length) :
    (∃ padding, lsbByteBits (nCrushWriteFinish sink') = bits ++ (lecCode.spell 256 ++ padding)) ∧
      4 ≤ (nCrushWriteFinish sink').length ∧ (nCrushWriteFinish sink').length ≤ sink.dst.length + 5 := by
  obtain ⟨padding, stream⟩ := mark.writeFinish
  have length := h.length
  have len' := mark.length
  rw [length_append, spell_endOfStream] at len'
  have offset := h.offset
  have off' := mark.offset
  have pairs := mark.pairs
  have finished : (nCrushWriteFinish sink').length = sink'.dst.length + 2 := by
    rw [nCrushWriteFinish, length_append]
    rfl
  rw [append_assoc] at stream
  exact ⟨⟨padding, stream⟩, by omega, by omega⟩

section
variable (ent : NcrushEntered base start packet)
include ent

theorem ncrushEncodes_start : NcrushEncodes base start packet ⟨base, start, packet, ⟨[], 0, 0⟩⟩ [] := by
  refine ⟨rfl, le_rfl, rfl, ent.held.symm, ?_, NCrushSink.holds_nil⟩
  rw [Nat.sub_self]
  exact .nil

theorem NcrushEncodes.finish {s : NcrushEncoder} (inv : NcrushEncodes base start packet s tokens) :
    Describes NcrushAllowed base.historyBuffer start (tokens ++ s.srcPtr.map .literal) packet ∧
      base.atTokens start (tokens ++ s.srcPtr.map .literal) = s.ncrush := by
  have lo := inv.lower
  have up := inv.upper
  have all := ent.held
  have split : packet.length = (s.historyPtr - start) + s.srcPtr.length := by omega
  rw [split, block_add, Nat.add_sub_cancel' lo, ← inv.source] at all
  refine ⟨?_, ?_⟩
  · rw [← all]
    exact inv.described.append (.literals _ _ _)
  rw [inv.context, NcrushContext.atTokens, ncrushTokensCache_append, ncrushTokensCache_literals]
  rfl

theorem encodePacket_spec (ne : packet ≠ []) (flags : Nat) :
    (∃ tokens, ncrushEncodePacket base packet start flags =
        (NcrushStop.flush (base.atTokens start tokens)).result packet) ∨
      ∃ tokens,
      NcrushSent base start packet flags (ncrushEncodePacket base packet start flags) tokens := by
  have lt := ent.small
  unfold ncrushEncodePacket
  dsimp only
  cases ncrushCompressLoop_spec ent (ncrushEncodes_start ent) (packet.length - 1) le_rfl with
  | inl flush =>
    obtain ⟨tokens, flush⟩ := flush
    rw [flush]
    exact Or.inl ⟨tokens, rfl⟩
  | inr sent =>
    obtain ⟨s, tokens, loop, inv⟩ := sent
    obtain ⟨desc, ctx⟩ := inv.finish ent
    have size : s.ncrush.historyBufferSize = 65536 := by
      rw [inv.context]
      exact ent.size
    have long := ncrushTokensBits_length desc ne (by omega) base.offsetCache
    rw [loop]
    dsimp only
    cases ncrushCompressTail_spec inv.sink (packet.length - 1) s.ncrush
        (ncrushTokensCache base.offsetCache start tokens) s.srcPtr s.historyPtr with
    | inl flush =>
      rw [flush, inv.context]
      exact Or.inl ⟨tokens, rfl⟩
    | inr tail =>
      obtain ⟨sink, tail, h⟩ := tail
      rw [ncrushTokensBits_append, inv.position] at long
      obtain ⟨_, written, mark⟩ := writeLEC_ok h (by decide : 256 < 294) (by decide : 13 ≤ 15) (-1015)
      obtain ⟨stream, ge, _⟩ := nCrushWriteFinish_spec h mark long
      rw [tail]
      dsimp only
      by_cases full : sink.dst.length + 4 ≥ packet.length - 1
      · rw [if_pos full, inv.context]
        exact Or.inl ⟨tokens, rfl⟩
      rw [if_neg full, written]
      dsimp only
      rw [if_neg (by omega), inv.upper, if_neg (by omega)]
      refine Or.inr ⟨tokens ++ s.srcPtr.map .literal, desc, ?_, rfl, rfl, ?_, ge, by dsimp only; omega⟩
      · rw [ctx]
      rw [ncrushTokensBits_append, inv.position]
      exact stream

end

end KvmServer.Codec
