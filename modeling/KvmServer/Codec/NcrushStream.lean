import KvmServer.Codec.NcrushCodes

/-! # NCRUSH bit streams

What the sink of the encoder has written and what the source of the decoder still holds, as bit
strings; and that each value written by the encoder is read back by the decoder. -/

namespace KvmServer.Codec
open Lib List Nat

/-! ## Writing -/

structure NCrushSink.Holds (sink : NCrushSink) (bits : List Bool) : Prop where
  stream : bits = lsbByteBits sink.dst ++ lsbBits sink.offset sink.accumulator
  accumulator : sink.accumulator < 2 ^ sink.offset
  offset : sink.offset < 16
  pairs : sink.dst.length % 2 = 0

theorem lsbByteBits_pair (accumulator : Nat) :
    lsbByteBits [UInt8.ofNat (accumulator &&& 0xFF), UInt8.ofNat (accumulator >>> 8 &&& 0xFF)] =
    lsbBits 16 accumulator := by
  have byte (n : Nat) : lsbBits 8 (UInt8.ofNat (n &&& 0xFF)).toNat = lsbBits 8 n := by
    rw [show 0xFF = 2 ^ 8 - 1 from rfl, and_two_pow_sub_one_eq_mod, UInt8.toNat_ofNat',
      mod_mod, lsbBits_mod]
  rw [show 16 = 8 + 8 from rfl, lsbBits_split, lsbByteBits_cons, lsbByteBits_cons,
    byte, byte, shiftRight_eq_div_pow]
  simp

theorem NCrushSink.holds_nil : NCrushSink.Holds ⟨[], 0, 0⟩ [] := ⟨rfl, by decide, by decide, rfl⟩

variable {sink : NCrushSink} {bits rest : List Bool} {v n copyOffset : Nat} {src : NCrushSource}
  {ncrush : NcrushContext}

theorem NCrushSink.Holds.writeBits (h : sink.Holds bits) (lt : v < 2 ^ n) (short : n ≤ 16) :
    (nCrushWriteBits sink v n).Holds (bits ++ lsbBits n v) := by
  have off := h.offset
  have bound : v * 2 ^ sink.offset < 2 ^ (n + sink.offset) := by
    rw [pow_add]
    exact Nat.mul_lt_mul_of_pos_right lt (Nat.two_pow_pos _)
  have word : 2 ^ (n + sink.offset) ≤ 2 ^ 32 := Nat.pow_le_pow_right (by decide) (by omega)
  have sum :
      sink.accumulator ||| (v <<< sink.offset) % 2 ^ 32 = sink.accumulator + 2 ^ sink.offset * v := by
    rw [shiftLeft_eq, mod_eq_of_lt (by omega), lor_comm, mul_two_pow_or h.accumulator,
      add_comm, mul_comm]
  have lo : sink.accumulator + 2 ^ sink.offset * v < 2 ^ (sink.offset + n) := by
    have : 2 ^ sink.offset * (v + 1) ≤ 2 ^ sink.offset * 2 ^ n := Nat.mul_le_mul_left _ lt
    rw [pow_add]
    have := h.accumulator
    rw [mul_add] at *
    omega
  have app : bits ++ lsbBits n v = lsbByteBits sink.dst ++
      lsbBits (sink.offset + n) (sink.accumulator + 2 ^ sink.offset * v) := by
    rw [h.stream, lsbBits_add h.accumulator, append_assoc]
  unfold nCrushWriteBits
  simp only [sum]
  split
  · rename_i full
    refine ⟨?_, ?_, by dsimp only; omega, by simp [h.pairs]⟩
    · have halves := lsbBits_split 16 (sink.offset + n - 16) (sink.accumulator + 2 ^ sink.offset * v)
      rw [Nat.add_sub_cancel' full] at halves
      dsimp only
      rw [app, halves, lsbByteBits_append, lsbByteBits_pair, append_assoc, shiftRight_eq_div_pow]
    dsimp only
    rw [shiftRight_eq_div_pow, Nat.div_lt_iff_lt_mul (Nat.two_pow_pos _), ← pow_add,
      Nat.sub_add_cancel full]
    exact lo
  · exact ⟨app, lo, by dsimp only; omega, h.pairs⟩

theorem NCrushSink.Holds.writeFinish (h : sink.Holds bits) :
    ∃ padding, lsbByteBits (nCrushWriteFinish sink) = bits ++ padding := by
  refine ⟨lsbBits (16 - sink.offset) (sink.accumulator / 2 ^ sink.offset), ?_⟩
  rw [nCrushWriteFinish, lsbByteBits_append, lsbByteBits_pair, h.stream, append_assoc,
    ← lsbBits_split, Nat.add_sub_cancel' (le_of_lt h.offset)]

theorem NCrushSink.Holds.length (h : sink.Holds bits) :
    bits.length = 8 * sink.dst.length + sink.offset := by
  rw [h.stream, length_append, lsbByteBits_length, lsbBits_length]

/-! ## Reading -/

def NCrushSource.Holds (src : NCrushSource) (bits : List Bool) : Prop :=
  ∃ window, bits = window ++ lsbByteBits src.srcPtr ∧ src.nbits = window.length ∧
    src.bits = lsbValue window ∧ window.length ≤ 32 ∧ (16 ≤ window.length ∨ src.srcPtr = [])

variable {win : List Bool} {cache : OffsetCache} {length : Nat}

theorem lsbValue_window (lt : v < 2 ^ n) (short : win.length + n ≤ 32) :
    (lsbValue win + v <<< win.length % 2 ^ 32) % 2 ^ 32 = lsbValue (win ++ lsbBits n v) := by
  have lo := lsbValue_lt (win ++ lsbBits n v)
  have word : 2 ^ (win ++ lsbBits n v).length ≤ 2 ^ 32 := by
    rw [length_append, lsbBits_length]
    exact Nat.pow_le_pow_right (by decide) short
  rw [add_mod_mod, shiftLeft_eq, mul_comm]
  rw [lsbValue_append, lsbValue_lsbBits_of_lt lt] at lo ⊢
  exact mod_eq_of_lt (by omega)

theorem lsbBits_word (low high : UInt8) : low.toNat ||| ((high.toNat <<< 8) &&& 0xFF00) < 2 ^ 16 ∧
      lsbBits 16 (low.toNat ||| ((high.toNat <<< 8) &&& 0xFF00)) = lsbBits 8 low.toNat ++
      lsbBits 8 high.toNat := by
  have lowLt : low.toNat < 2 ^ 8 := low.toNat_lt
  have highLt : high.toNat < 2 ^ 8 := high.toNat_lt
  have mask : (high.toNat <<< 8) &&& 0xFF00 = high.toNat * 2 ^ 8 := by
    rw [shiftLeft_eq, show 0xFF00 = 2 ^ 16 - 2 ^ 8 from rfl, and_high_mask (by omega) (by decide),
      Nat.mul_div_cancel _ (Nat.two_pow_pos 8)]
  rw [mask, lor_comm, mul_two_pow_or lowLt]
  refine ⟨by omega, ?_⟩
  rw [add_comm, mul_comm, show 16 = 8 + 8 from rfl, lsbBits_add lowLt]

theorem nCrushFetchBits_holds (nbits : src.nbits = win.length) (value : src.bits = lsbValue win)
    (short : win.length ≤ 32) :
    ∃ src', nCrushFetchBits src = some src' ∧ src'.Holds (win ++ lsbByteBits src.srcPtr) := by
  obtain ⟨srcPtr, n, v⟩ := src
  subst nbits value
  unfold nCrushFetchBits
  by_cases low : (win.length : Int) < 16
  · rw [if_pos low, Int.toNat_natCast]
    match srcPtr with
    | [] =>
      exact ⟨_, rfl, win, by simp, rfl, rfl, short, Or.inr rfl⟩
    | [byte] =>
      have lt : byte.toNat < 2 ^ 8 := byte.toNat_lt
      refine ⟨_, rfl, win ++ lsbBits 8 byte.toNat, by simp, by simp, ?_, by simp; omega, Or.inr rfl⟩
      rw [← lsbValue_window lt (by omega), add_mod_mod]
    | first :: second :: rest =>
      obtain ⟨lt, bits⟩ := lsbBits_word first second
      refine ⟨_, rfl, win ++ lsbBits 8 first.toNat ++ lsbBits 8 second.toNat, by simp, ?_, ?_,
        by simp; omega, Or.inl (by simp)⟩
      · simp
      · rw [append_assoc, ← bits, ← lsbValue_window lt (by omega)]
  · rw [if_neg low]
    exact ⟨_, rfl, win, rfl, rfl, rfl, short, Or.inl (by omega)⟩

theorem NCrushSource.Holds.peek (h : src.Holds bits) {k : Nat}
    (short : k ≤ 16) : src.bits &&& (2 ^ k - 1) = lsbValue bits % 2 ^ k := by
  obtain ⟨win, stream, -, value, -, filled⟩ := h
  rw [and_two_pow_sub_one_eq_mod, value, stream, lsbValue_append]
  cases filled with
  | inl _ =>
    have divides : 2 ^ k ∣ 2 ^ win.length * lsbValue (lsbByteBits src.srcPtr) :=
      Dvd.dvd.mul_right (Nat.pow_dvd_pow 2 (by omega)) _
    rw [add_mod, mod_eq_zero_of_dvd divides, add_zero, mod_mod]
  | inr empty => rw [empty, lsbByteBits_nil, lsbValue_nil, mul_zero, add_zero]

theorem NCrushSource.Holds.skip {word : List Bool} (h : src.Holds (word ++ rest))
    (short : word.length ≤ 16) :
    ∃ src', nCrushSkip src word.length = some src' ∧ src'.Holds rest := by
  obtain ⟨win, stream, _, value, _, filled⟩ := h
  have inside : word.length ≤ win.length := by
    cases filled with
    | inl _ => omega
    | inr empty =>
      rw [empty, lsbByteBits_nil, append_nil] at stream
      rw [← stream, length_append]
      omega
  have rem : rest = win.drop word.length ++ lsbByteBits src.srcPtr := by
    rw [← drop_append_of_le_length inside, ← stream, drop_left]
  rw [rem]
  refine nCrushFetchBits_holds ?_ ?_ ?_
  · rw [length_drop]
    dsimp only
    omega
  · rw [lsbValue_drop, ← value, shiftRight_eq_div_pow]
  rw [length_drop]
  omega

/-! ## Symbols and extra bits -/

theorem lecCode_words : lecCode.words.length = 294 ∧ huffLengthLEC.length = 294 ∧
    huffCodeLEC.length = 588 ∧ (wordsOf huffCodeLEC).length = 294 := by
  decide +kernel

theorem lomCode_words : lomCode.words.length = 32 ∧ huffLengthLOM.length = 32 ∧ huffCodeLOM.length = 32 ∧
    lomBitsLUT.length = 30 ∧ lomBaseLUT.length = 30 := by
  decide +kernel

theorem getD_zip (xs ys : List Nat) {i : Nat} (left : i < xs.length) (right : i < ys.length) :
    (xs.zip ys).getD i (0, 0) = (xs.getD i 0, ys.getD i 0) := by
  rw [getD_eq_getElem _ _ (by rw [length_zip]; omega), getD_eq_getElem _ _ left,
    getD_eq_getElem _ _ right, getElem_zip]

theorem lecCode_word {sym : Nat} (inside : sym < 294) :
    lecCode.words.getD sym (0, 0) = (huffLengthLEC.getD sym 0, getWord huffCodeLEC (2 * sym)) := by
  obtain ⟨words, _, _, _⟩ := lecCode_words
  rw [getWord_wordsOf _ _ (by omega)]
  exact getD_zip _ _ (by omega) (by omega)

theorem lecCode_spell_length {sym : Nat} (inside : sym < 294) : 5 ≤ (lecCode.spell sym).length := by
  have ge : ∀ length ∈ huffLengthLEC, 5 ≤ length := by decide +kernel
  have row : sym < huffLengthLEC.length := by
    rw [lecCode_words.2.1]
    exact inside
  rw [LookupCode.spell_length, lecCode_word inside, getD_eq_getElem _ _ row]
  exact ge _ (getElem_mem row)

theorem writeLEC_ok (h : sink.Holds bits) {sym : Nat} (inside : sym < 294)
    {maxLen : Nat} (room : 13 ≤ maxLen) (tooLong : Int) :
    ∃ sink', writeLEC sink sym maxLen tooLong = .ok sink' ∧ sink'.Holds (bits ++ lecCode.spell sym) := by
  obtain ⟨_, _, _, _⟩ := lecCode_words
  have word := lecCode_word inside
  have length : huffLengthLEC.getD sym 0 ≤ 13 := by
    have bound := @LookupCode.spell_length_le lecCode sym (by omega)
    rwa [LookupCode.spell_length, word] at bound
  have lt := @LookupCode.word_small lecCode sym (by omega)
  rw [word] at lt
  rw [writeLEC, if_neg (by omega), LookupCode.spell, word]
  rw [if_neg (by omega)]
  exact ⟨_, rfl, h.writeBits lt (by omega)⟩

def lengthBits (length : Nat) : List Bool :=
  lomCode.spell (generatedTableLOM length) ++
    lsbBits (lomBitsLUT.getD (generatedTableLOM length) 0)
      ((length - 2) &&& (2 ^ lomBitsLUT.getD (generatedTableLOM length) 0 - 1))

theorem lomBits_le : ∀ i, i < 30 → lomBitsLUT.getD i 0 ≤ 14 := by decide +kernel

theorem copyOffsetBits_le : ∀ i, i < 32 → copyOffsetBitsLUT.getD i 0 ≤ 14 := by decide +kernel

theorem and_mask_lt (x k : Nat) : x &&& (2 ^ k - 1) < 2 ^ k := by
  rw [and_two_pow_sub_one_eq_mod]
  exact mod_lt _ (Nat.two_pow_pos k)

theorem writeLOM_ok (table : ncrush.huffTableLOM = generatedTableLOM)
    (h : sink.Holds bits) (lo : 2 ≤ length) (up : length - 2 < 768) (mismatch : Int) :
    ∃ sink', writeLOM ncrush sink length mismatch = .ok sink' ∧
    sink'.Holds (bits ++ lengthBits length) := by
  obtain ⟨words, _, _, _, _⟩ := lomCode_words
  obtain ⟨_, sum⟩ := generatedTableLOM_spec lo up
  have word : lomCode.words.getD (generatedTableLOM length) (0, 0) =
      (huffLengthLOM.getD (generatedTableLOM length) 0, huffCodeLOM.getD (generatedTableLOM length) 0) :=
    getD_zip _ _ (by omega) (by omega)
  have bound := @LookupCode.spell_length_le lomCode (generatedTableLOM length) (by omega)
  have lt := @LookupCode.word_small lomCode (generatedTableLOM length) (by omega)
  rw [LookupCode.spell_length, word] at bound
  rw [word] at lt
  have extra := lomBits_le _ (by omega : generatedTableLOM length < 30)
  have short : ¬length - 2 ≥ 768 := Nat.not_le_of_lt up
  unfold writeLOM
  simp only [if_neg short, table]
  rw [if_neg (by omega), if_neg (not_not.mpr sum), lengthBits, ← append_assoc, LookupCode.spell, word]
  exact ⟨_, rfl, (h.writeBits lt (le_trans bound (by decide))).writeBits (and_mask_lt _ _) (by omega)⟩

/-! ## Copies -/

def copySymbol (cache : OffsetCache) (copyOffset : Nat) : Nat :=
  match cache.find copyOffset with
  | some index => 289 + index
  | none => 257 + copyOffsetIndex copyOffset

def copyExtra (cache : OffsetCache) (copyOffset : Nat) : List Bool :=
  match cache.find copyOffset with
  | some _ => []
  | none => lsbBits (copyOffsetBitsLUT.getD (copyOffsetIndex copyOffset) 0)
      (copyOffset &&& (2 ^ copyOffsetBitsLUT.getD (copyOffsetIndex copyOffset) 0 - 1))

def OffsetCache.use (cache : OffsetCache) (copyOffset : Nat) : OffsetCache :=
  match cache.find copyOffset with
  | some index => cache.swap index
  | none => cache.push copyOffset

def copyBits (cache : OffsetCache) (copyOffset length : Nat) : List Bool :=
  lecCode.spell (copySymbol cache copyOffset) ++ copyExtra cache copyOffset ++ lengthBits length

theorem OffsetCache.find_spec {idx : Nat} (got : cache.find copyOffset = some idx) :
    idx < 4 ∧ cache.get idx = copyOffset := by
  unfold OffsetCache.find at got
  repeat' split at got
  all_goals cases got
  all_goals exact ⟨by decide, Eq.symm ‹_›⟩

theorem writeCopyOffset_ok (table : ncrush.huffTableCopyOffset = generatedTableCopyOffset)
    (h : sink.Holds bits) (off : copyOffset < 65536) : ∃ sink',
    writeCopyOffset ncrush sink copyOffset = .ok sink' ∧
      sink'.Holds (bits ++ (lecCode.spell (257 + copyOffsetIndex copyOffset) ++
        lsbBits (copyOffsetBitsLUT.getD (copyOffsetIndex copyOffset) 0)
          (copyOffset &&& (2 ^ copyOffsetBitsLUT.getD (copyOffsetIndex copyOffset) 0 - 1)))) := by
  obtain ⟨inside, -⟩ := copyOffsetIndex_spec off
  have extra := copyOffsetBits_le _ inside
  have rows : copyOffsetBitsLUT.length = 32 := rfl
  obtain ⟨sink', written, h'⟩ :=
    writeLEC_ok h (by omega : 257 + copyOffsetIndex copyOffset < 294) (by omega : 13 ≤ 15) (-1008)
  unfold writeCopyOffset
  rw [table]
  change ∃ sink', (if copyOffsetIndex copyOffset ≥ _ then _ else _) = _ ∧ _
  rw [if_neg (by omega)]
  rw [← copyOffsetIndex, written]
  dsimp only
  rw [if_neg (by omega), ← append_assoc]
  exact ⟨_, rfl, h'.writeBits (and_mask_lt _ _) (by omega)⟩

def NcrushContext.Generated (ncrush : NcrushContext) : Prop :=
  ncrush.huffTableCopyOffset = generatedTableCopyOffset ∧ ncrush.huffTableLOM = generatedTableLOM

theorem writeMatch_ok (tbls : ncrush.Generated) (h : sink.Holds bits) (off : copyOffset < 65536)
    (lo : 2 ≤ length) (up : length - 2 < 768) : ∃ sink', writeMatch ncrush sink copyOffset length =
        ({ ncrush with offsetCache := ncrush.offsetCache.use copyOffset }, .ok sink') ∧
      sink'.Holds (bits ++ copyBits ncrush.offsetCache copyOffset length) := by
  unfold writeMatch copyBits copySymbol copyExtra OffsetCache.use
  cases got : ncrush.offsetCache.find copyOffset with
  | some idx =>
    have lt := (OffsetCache.find_spec got).1
    obtain ⟨sink₁, wr₁, h₁⟩ := writeLEC_ok h (by omega : 289 + idx < 294) (by omega : 13 ≤ 14) (-1011)
    obtain ⟨sink₂, wr₂, h₂⟩ := writeLOM_ok tbls.2 h₁ lo up (-1012)
    refine ⟨sink₂, ?_, by simpa using h₂⟩
    dsimp only
    rw [wr₁]
    dsimp only
    rw [wr₂]
  | none =>
    obtain ⟨sink₁, wr₁, h₁⟩ := writeCopyOffset_ok tbls.1 h off
    obtain ⟨sink₂, wr₂, h₂⟩ := writeLOM_ok tbls.2 h₁ lo up (-1010)
    refine ⟨sink₂, ?_, by simpa using h₂⟩
    rw [wr₁]
    dsimp only
    rw [wr₂]

/-! ## Reading back -/

theorem getWord_mask : ∀ n, n < 15 → 0 < n →
    ¬2 * n + 3 ≥ huffTableMask.length ∧ getWord huffTableMask (2 * n + 3) = 2 ^ n - 1 := by
  decide +kernel

theorem nCrushReadExtra_ok (h : src.Holds (lsbBits n v ++ rest)) (lt : v < 2 ^ n)
    (short : n ≤ 14) (base : Nat) :
    ∃ src', nCrushReadExtra src n base = some (base + v, src') ∧ src'.Holds rest := by
  unfold nCrushReadExtra
  by_cases empty : n = 0
  · subst empty
    rw [pow_zero, lt_one_iff] at lt
    subst lt
    exact ⟨src, rfl, h⟩
  obtain ⟨inside, mask⟩ := getWord_mask n (by omega) (by omega)
  have value : src.bits &&& getWord huffTableMask (2 * n + 3) = v := by
    rw [mask, h.peek (by omega), lsbValue_append, lsbValue_lsbBits_of_lt lt, lsbBits_length,
      add_mul_mod_self_left, mod_eq_of_lt lt]
  obtain ⟨src', skipped, h'⟩ := h.skip (by rw [lsbBits_length]; omega)
  rw [lsbBits_length] at skipped
  rw [if_pos empty, if_neg inside, value, skipped]
  exact ⟨src', rfl, h'⟩

theorem NCrushSource.Holds.symbol {code : LookupCode} {sym : Nat}
    (h : src.Holds (code.spell sym ++ rest)) (inside : sym < code.words.length)
    (short : code.width ≤ 16) :
    code.entry (src.bits &&& (2 ^ code.width - 1)) = code.pack sym (code.spell sym).length ∧
      ∃ src', nCrushSkip src (code.spell sym).length = some src' ∧ src'.Holds rest := by
  refine ⟨?_, h.skip (le_trans (code.spell_length_le inside) short)⟩
  rw [h.peek short]
  exact code.entry_spell inside rest

theorem ncrushReadLength_ok (h : src.Holds (lengthBits length ++ rest))
    (lo : 2 ≤ length) (up : length - 2 < 768) :
    ∃ src', ncrushReadLength src = some (length, src') ∧ src'.Holds rest := by
  obtain ⟨_, -, -, _, _⟩ := lomCode_words
  obtain ⟨_, sum⟩ := generatedTableLOM_spec lo up
  rw [lengthBits, append_assoc] at h
  obtain ⟨entry, _, skip, h₁⟩ := h.symbol (by omega) (by decide)
  obtain ⟨src₂, read, h₂⟩ := nCrushReadExtra_ok h₁ (and_mask_lt _ _) (lomBits_le _ (by omega))
    (lomBaseLUT.getD (generatedTableLOM length) 0)
  have mask : getWord huffTableMask 21 = 2 ^ lomCode.width - 1 := by decide
  have win : ¬(src.bits &&& (2 ^ lomCode.width - 1)) ≥ 512 :=
    Nat.not_le_of_lt (and_mask_lt src.bits lomCode.width)
  have sym : generatedTableLOM length < 2 ^ 12 := by omega
  change huffTableLOM _ = packEntry _ _ at entry
  unfold ncrushReadLength
  dsimp only
  rw [mask, if_neg win, entry, packEntry_symbol sym, packEntry_length sym, skip]
  dsimp only
  rw [if_neg (by omega), read, add_comm, sum]
  exact ⟨src₂, rfl, h₂⟩

theorem ncrushReadCopy_ok (h : src.Holds (copyExtra cache copyOffset ++ (lengthBits length ++ rest)))
    (off : copyOffset < 65536) (lo : 2 ≤ length) (up : length - 2 < 768) :
    ∃ src', ncrushReadCopy src cache (copySymbol cache copyOffset) =
        .ok (copyOffset, length, src', cache.use copyOffset) ∧ src'.Holds rest := by
  unfold copyExtra at h
  unfold ncrushReadCopy copySymbol OffsetCache.use
  cases got : cache.find copyOffset with
  | some index =>
    obtain ⟨_, entry⟩ := OffsetCache.find_spec got
    rw [got] at h
    obtain ⟨src', read, h'⟩ := ncrushReadLength_ok h lo up
    have sym : 289 + index - 289 = index := by omega
    dsimp only
    rw [if_pos (by omega), sym, if_neg (by omega), read, entry]
    exact ⟨src', rfl, h'⟩
  | none =>
    obtain ⟨inside, sum⟩ := copyOffsetIndex_spec off
    rw [got] at h
    obtain ⟨_, read₁, h₁⟩ := nCrushReadExtra_ok h (and_mask_lt _ _)
      (copyOffsetBits_le _ inside) (copyOffsetBaseLUT.getD (copyOffsetIndex copyOffset) 0)
    obtain ⟨src₂, read₂, h₂⟩ := ncrushReadLength_ok h₁ lo up
    have sym : 257 + copyOffsetIndex copyOffset - 257 = copyOffsetIndex copyOffset := by omega
    rw [sym, if_neg (by omega), read₁, add_comm (copyOffsetBaseLUT.getD _ 0), sum]
    dsimp only
    rw [if_neg (by omega), read₂]
    exact ⟨src₂, rfl, h₂⟩

end KvmServer.Codec
