import KvmServer.Codec.NcrushStream

/-! # The NCRUSH decoder

Fed with the bits of a token list that describes a block, the decoder writes the block and leaves
the offset cache as the encoder left its own. -/

namespace KvmServer.Codec
open Lib List Nat

def NcrushAllowed (dst src len : Nat) : Prop := src < dst ∧ 2 ≤ len ∧ len ≤ 16

/-! ## Tokens -/

def ncrushTokenBits (cache : OffsetCache) (dst : Nat) : LzToken UInt8 → List Bool
  | .literal literal => lecCode.spell literal.toNat
  | .copy src len => copyBits cache (dst - src) len

def ncrushTokenCache (cache : OffsetCache) (dst : Nat) : LzToken UInt8 → OffsetCache
  | .literal _ => cache
  | .copy src _ => cache.use (dst - src)

def ncrushTokensBits : OffsetCache → Nat → List (LzToken UInt8) → List Bool
  | _, _, [] => []
  | cache, dst, token :: tokens =>
    ncrushTokenBits cache dst token ++
      ncrushTokensBits (ncrushTokenCache cache dst token) (dst + token.advance) tokens

def ncrushTokensCache : OffsetCache → Nat → List (LzToken UInt8) → OffsetCache
  | cache, _, [] => cache
  | cache, dst, token :: tokens =>
    ncrushTokensCache (ncrushTokenCache cache dst token) (dst + token.advance) tokens

variable (cache : OffsetCache) (dst : Nat)

theorem ncrushTokensCache_append (tokens₁ tokens₂ : List (LzToken UInt8)) :
    ncrushTokensCache cache dst (tokens₁ ++ tokens₂) = ncrushTokensCache
    (ncrushTokensCache cache dst tokens₁) (dst + (tokens₁.map LzToken.advance).sum) tokens₂ := by
  induction tokens₁ generalizing cache dst with
  | nil => rfl
  | cons _ tokens₁ ih =>
    rw [cons_append, ncrushTokensCache, ih, ncrushTokensCache, map_cons, sum_cons, add_assoc]

theorem ncrushTokensBits_append (tokens₁ tokens₂ : List (LzToken UInt8)) :
    ncrushTokensBits cache dst (tokens₁ ++ tokens₂) =
      ncrushTokensBits cache dst tokens₁ ++ ncrushTokensBits (ncrushTokensCache cache dst tokens₁)
          (dst + (tokens₁.map LzToken.advance).sum) tokens₂ := by
  induction tokens₁ generalizing cache dst with
  | nil => rfl
  | cons _ tokens₁ ih =>
    rw [cons_append, ncrushTokensBits, ih, ncrushTokensBits, ncrushTokensCache,
      map_cons, sum_cons, append_assoc, add_assoc]

/-- The second loop reads cyclically what a sliding copy reads straight on, because the cells behind
the write position repeat with the period `copyOffset`. -/
theorem cyclicCopy_eq {mem : Mem UInt8} {dst period idx k : Nat} (pos : 0 < period)
    (periodic : ∀ j, j < period + k → mem (dst + j) = mem (dst + j % period))
    (range : idx ≤ period) (turn : idx % period = k % period) (n : Nat) :
    cyclicCopy mem (dst + period + k) dst period idx n = lzCopy mem (dst + period + k) (dst + k) n := by
  induction n generalizing mem idx k with
  | zero => rfl
  | succ n ih =>
    have low : k % period < period := mod_lt k pos
    have wrap : (if idx ≥ period then 0 else idx) = k % period := by
      split
      · rw [← turn, show idx = period by omega, mod_self]
      · rw [← turn, mod_eq_of_lt (by omega)]
    rw [cyclicCopy, lzCopy, wrap, ← periodic k (by omega)]
    refine @ih _ _ (k + 1) ?_ low ?_
    · intro j _
      have fst : j % period < period := mod_lt j pos
      rw [store_of_ne _ _ (by omega : dst + j % period ≠ dst + period + k)]
      by_cases last : j = period + k
      · rw [last, ← add_assoc, store_same, add_mod_left]
        exact periodic k (by omega)
      rw [store_of_ne _ _ (by omega)]
      exact periodic j (by omega)
    · rw [mod_add_mod]

theorem ncrushCopy_eq (mem : Mem UInt8) (historyBufferEnd : Nat) {dst src : Nat}
    (past : src < dst) (len : Nat) :
    ncrushCopy mem historyBufferEnd dst (dst - src) len = (lzCopy mem dst src len, dst + len) := by
  have back : dst - (dst - src) = src := by omega
  have ahead : src + (dst - src) = dst := by omega
  unfold ncrushCopy
  dsimp only
  rw [if_pos (by omega), back]
  by_cases long : len > dst - src
  · have wrap := @cyclicCopy_eq (lzCopy mem dst src (dst - src)) dst (dst - src) 0 0 (by omega)
      (fun j lo => by rw [mod_eq_of_lt (by omega)]) (by omega) rfl (len - (dst - src))
    rw [if_pos long, ahead]
    rw [add_zero, add_zero] at wrap
    rw [wrap]
    conv_rhs => rw [← Nat.add_sub_cancel' (le_of_lt long), lzCopy_add, ahead]
    rw [add_assoc, Nat.add_sub_cancel' (le_of_lt long)]
  · rw [if_neg long, show len - (dst - src) = 0 by omega]
    rfl

/-! ## One symbol -/

section
variable {s : NcrushDecoder} {rest : List Bool} {histBufEnd : Nat}

theorem ncrush_mask : getWord huffTableMask 29 = 2 ^ lecCode.width - 1 := by decide

theorem lecWindow_lt (bits : Nat) : ¬(bits &&& (2 ^ lecCode.width - 1)) ≥ 8192 :=
  Nat.not_le_of_lt (and_mask_lt bits lecCode.width)

theorem lec_symbol {src : NCrushSource} {sym : Nat} (h : src.Holds (lecCode.spell sym ++ rest))
    (inside : sym < 294) :
    huffTableLEC (src.bits &&& (2 ^ lecCode.width - 1)) = packEntry sym (lecCode.spell sym).length ∧
      ∃ src', nCrushSkip src (lecCode.spell sym).length = some src' ∧ src'.Holds rest :=
  h.symbol (by rw [lecCode_words.1]; exact inside) (by decide)

theorem ncrushDecompressStep_literal {literal : UInt8}
    (h : s.src.Holds (lecCode.spell literal.toNat ++ rest)) (inside : s.historyPtr < histBufEnd) :
    ∃ src', src'.Holds rest ∧ ncrushDecompressStep histBufEnd s = .next { s with
        src := src'
        historyBuffer := store s.historyBuffer s.historyPtr literal
        historyPtr := s.historyPtr + 1 } := by
  have lt : literal.toNat < 256 := literal.toNat_lt
  obtain ⟨entry, src', skip, h'⟩ := lec_symbol h (by omega)
  have sym : literal.toNat < 2 ^ 12 := by omega
  have byte :
      UInt8.ofNat (packEntry literal.toNat (lecCode.spell literal.toNat).length &&& 0xFF) = literal := by
    apply UInt8.toNat_inj.mp
    rw [show 0xFF = 2 ^ 8 - 1 from rfl, and_two_pow_sub_one_eq_mod, UInt8.toNat_ofNat', packEntry]
    omega
  refine ⟨src', h', ?_⟩
  unfold ncrushDecompressStep
  dsimp only
  rw [ncrush_mask, if_neg (lecWindow_lt _), entry, packEntry_symbol sym, packEntry_length sym, skip]
  dsimp only
  rw [if_pos lt, if_neg (Nat.not_le_of_lt inside), byte]

theorem ncrushDecompressStep_done (h : s.src.Holds (lecCode.spell 256 ++ rest)) :
    ∃ src', ncrushDecompressStep histBufEnd s = .done { s with src := src' } := by
  obtain ⟨entry, src', skip, -⟩ := lec_symbol h (by decide)
  refine ⟨src', ?_⟩
  unfold ncrushDecompressStep
  dsimp only
  rw [ncrush_mask, if_neg (lecWindow_lt _), entry, packEntry_symbol (by decide),
    packEntry_length (by decide), skip]
  rfl

theorem copySymbol_range {cache : OffsetCache} {copyOff : Nat} (off : copyOff < 65536) :
    256 < copySymbol cache copyOff ∧ copySymbol cache copyOff < 294 := by
  unfold copySymbol
  cases got : cache.find copyOff with
  | some _ =>
    have := (OffsetCache.find_spec got).1
    dsimp only
    omega
  | none =>
    have := (copyOffsetIndex_spec off).1
    dsimp only
    omega

theorem ncrushDecompressStep_copy {src len : Nat} (always : NcrushAllowed s.historyPtr src len)
    (h : s.src.Holds (copyBits s.offsetCache (s.historyPtr - src) len ++ rest))
    (inside : s.historyPtr + len < histBufEnd) (lt : histBufEnd < 65536) :
    ∃ src', src'.Holds rest ∧ ncrushDecompressStep histBufEnd s =
      .next { src := src'
              historyBuffer := lzCopy s.historyBuffer s.historyPtr src len
              historyPtr := s.historyPtr + len
              offsetCache := s.offsetCache.use (s.historyPtr - src) } := by
  obtain ⟨past, lo, _⟩ := always
  obtain ⟨_, below⟩ := @copySymbol_range s.offsetCache (s.historyPtr - src) (by omega)
  rw [copyBits, append_assoc, append_assoc] at h
  obtain ⟨entry, _, skip, h₁⟩ := lec_symbol h below
  obtain ⟨src₂, read, h₂⟩ := ncrushReadCopy_ok h₁ (by omega) lo (by omega)
  have sym : copySymbol s.offsetCache (s.historyPtr - src) < 2 ^ 12 := by omega
  -- the pointer difference is taken modulo the size of the history
  have ptr : (s.historyPtr + 2 ^ 64 - (s.historyPtr - src)) &&& 0xFFFF = src := by
    rw [show 0xFFFF = 2 ^ 16 - 1 from rfl, and_two_pow_sub_one_eq_mod]
    omega
  refine ⟨src₂, h₂, ?_⟩
  unfold ncrushDecompressStep
  dsimp only
  rw [ncrush_mask, if_neg (lecWindow_lt _), entry, packEntry_symbol sym, packEntry_length sym, skip]
  dsimp only
  rw [if_neg (by omega), if_neg (by omega), read]
  dsimp only
  rw [if_neg (by omega), ptr, if_neg (by omega), ncrushCopy_eq _ _ past]

end

theorem ncrushDecompressLoop_tokens {historyBufferEnd : Nat} (lt : historyBufferEnd < 65536)
    {mem : Mem UInt8} {dst : Nat} {tokens : List (LzToken UInt8)} {block : List UInt8}
    (desc : Describes NcrushAllowed mem dst tokens block) {cache : OffsetCache} {src : NCrushSource}
    {rest : List Bool} {fuel : Nat} (fits : dst + block.length < historyBufferEnd)
    (h : src.Holds (ncrushTokensBits cache dst tokens ++ (lecCode.spell 256 ++ rest)))
    (room : block.length < fuel) :
    ∃ src', ncrushDecompressLoop historyBufferEnd fuel ⟨src, mem, dst, cache⟩ =
      (⟨src', blit mem dst block, dst + block.length, ncrushTokensCache cache dst tokens⟩, 1) := by
  induction desc generalizing cache src fuel with
  | nil =>
    obtain ⟨fuel, rfl⟩ := exists_eq_succ_of_ne_zero (ne_of_gt room)
    obtain ⟨src', step⟩ := ncrushDecompressStep_done (s := ⟨src, _, _, cache⟩) h
    refine ⟨src', ?_⟩
    rw [ncrushDecompressLoop, step]
    rfl
  | @literal mem dst x tokens block desc ih =>
    obtain ⟨fuel, rfl⟩ := exists_eq_succ_of_ne_zero (Nat.ne_zero_of_lt room)
    rw [length_cons] at fits room
    rw [ncrushTokensBits, append_assoc] at h
    obtain ⟨src₁, h₁, step⟩ := @ncrushDecompressStep_literal ⟨src, mem, dst, cache⟩ _
      historyBufferEnd x h (by dsimp only; omega)
    obtain ⟨src', loop⟩ := @ih _ _ fuel (by omega) h₁ (by omega)
    refine ⟨src', ?_⟩
    rw [ncrushDecompressLoop, step]
    refine Eq.trans loop ?_
    rw [length_cons, add_right_comm dst, add_assoc dst]
    rfl
  | @copy mem dst source xs tokens block reps always desc ih =>
    obtain ⟨fuel, rfl⟩ := exists_eq_succ_of_ne_zero (Nat.ne_zero_of_lt room)
    rw [length_append] at fits room
    rw [ncrushTokensBits, append_assoc] at h
    obtain ⟨src₁, h₁, step⟩ :=
      ncrushDecompressStep_copy (s := ⟨src, mem, dst, cache⟩) always h (by dsimp only; omega) lt
    have := always.2.1
    obtain ⟨src', loop⟩ := @ih _ _ fuel (by omega) h₁ (by omega)
    refine ⟨src', ?_⟩
    rw [ncrushDecompressLoop, step]
    rw [lzCopy_of_repeats reps]
    refine Eq.trans loop ?_
    rw [length_append, blit_append, add_assoc dst]
    rfl

theorem ncrush_firstWindow (b0 b1 b2 b3 : UInt8) (srcPtr : List UInt8) : NCrushSource.Holds
      ⟨srcPtr, 32, b0.toNat ||| b1.toNat <<< 8 ||| b2.toNat <<< 16 ||| b3.toNat <<< 24⟩
      (lsbByteBits (b0 :: b1 :: b2 :: b3 :: srcPtr)) := by
  have lt (b : UInt8) : b.toNat < 2 ^ 8 := b.toNat_lt
  have := lt b0
  have := lt b1
  have := lt b2
  refine ⟨lsbByteBits [b0, b1, b2, b3], by simp, by simp, ?_, by simp, Or.inl (by simp)⟩
  simp only [lsbByteBits_cons, lsbByteBits_nil, lsbValue_append, lsbBits_length,
    lsbValue_lsbBits_of_lt (lt _), lsbValue_nil]
  rw [or_shiftLeft_eq _ (lt b0), @or_shiftLeft_eq 16 (b0.toNat + b1.toNat * 2 ^ 8) _ (by omega),
    @or_shiftLeft_eq 24 (b0.toNat + b1.toNat * 2 ^ 8 + b2.toNat * 2 ^ 16) _ (by omega)]
  ring

theorem ncrushDecompressHistory_tokens {ncrush : NcrushContext} (last : ncrush.historyEndOffset = 65535)
    (fence : ncrush.historyBufferFence = 0xABABABAB) {tokens : List (LzToken UInt8)}
    {packet : List UInt8}
    (desc : Describes NcrushAllowed ncrush.historyBuffer ncrush.historyPtr tokens packet)
    (fits : ncrush.historyPtr + packet.length < 65535) {bs : List UInt8} {padding : List Bool}
    (stream : lsbByteBits bs = ncrushTokensBits ncrush.offsetCache ncrush.historyPtr tokens ++
      (lecCode.spell 256 ++ padding)) (four : 4 ≤ bs.length) :
    ncrushDecompressHistory ncrush bs =
      { ncrush := { ncrush with
          historyBuffer := blit ncrush.historyBuffer ncrush.historyPtr packet
          offsetCache := ncrushTokensCache ncrush.offsetCache ncrush.historyPtr tokens
          historyPtr := ncrush.historyPtr + packet.length }
        status := 1
        dstData := packet } := by
  match bs, four with
  | b0 :: b1 :: b2 :: b3 :: srcPtr, _ =>
    have h := ncrush_firstWindow b0 b1 b2 b3 srcPtr
    rw [stream] at h
    obtain ⟨_, loop⟩ := @ncrushDecompressLoop_tokens 65535 (by decide) _ _ _ _ desc _ _ _ (65535 + 2)
      fits h (by omega)
    unfold ncrushDecompressHistory
    dsimp only
    rw [last, loop]
    rw [if_neg (not_not.mpr rfl), if_neg (not_not.mpr fence), Nat.add_sub_cancel_left, block_blit]

end KvmServer.Codec
