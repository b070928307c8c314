import KvmServer.Codec.MppcCodes

/-! # What `mppc_decompress` does with a token stream -/

namespace KvmServer.Codec
open Lib List Nat

section
variable {bytes : List UInt8} {rest : List Bool} (lvl : Nat) {s : MppcDecoder}

theorem accumulator_tests (bits : List Bool) :
    (msbPeek bits 32 &&& 0x80000000 = 0x00000000 ↔ msbPeek bits 1 = 0) ∧
      (msbPeek bits 32 &&& 0xC0000000 = 0x80000000 ↔ msbPeek bits 2 = 2) := by
  have lt := msbPeek_lt bits 32
  have one := and_high_mask lt (show 31 ≤ 32 by omega)
  have two := and_high_mask lt (show 30 ≤ 32 by omega)
  have pre₁ := msbPeek_div bits 1 31
  have pre₂ := msbPeek_div bits 2 30
  simp only [reducePow, reduceSub, Nat.reduceAdd] at one two pre₁ pre₂
  omega

theorem accumulator_of_front {bits : List Bool} (pre : msbPeek bits 2 = 3) :
    ¬msbPeek bits 32 &&& 0x80000000 = 0x00000000 ∧ ¬msbPeek bits 32 &&& 0xC0000000 = 0x80000000 := by
  have split := msbPeek_div bits 1 1
  rw [(accumulator_tests bits).1, (accumulator_tests bits).2, ← split, pre]
  decide

theorem mppcDecompressStep_literal {sym : UInt8} (rd : Reads bytes s.bs (literalBits sym ++ rest))
    (inside : s.historyPtr < mppcHistorySize lvl) : ∃ bs',
    mppcDecompressStep lvl (mppcHistorySize lvl) s =
        .ok ⟨bs', store s.historyBuffer s.historyPtr sym, s.historyPtr + 1⟩ ∧ Reads bytes bs' rest := by
  have byte := sym.toNat_lt
  have tests := accumulator_tests (literalBits sym ++ rest)
  rw [← rd.accumulator_eq] at tests
  unfold mppcDecompressStep
  simp only [if_neg (show ¬s.historyPtr > mppcHistorySize lvl - 1 by omega), tests]
  unfold literalBits at rd ⊢
  by_cases low : sym.toNat < 0x80
  · simp only [if_pos low] at rd ⊢
    have code : msbPeek (msbBits 8 sym.toNat ++ rest) 8 = sym.toNat :=
      msbPeek_msbBits_append (by omega) rest
    have pre₁ := msbPeek_div (msbBits 8 sym.toNat ++ rest) 1 7
    have pre₈ := msbPeek_div (msbBits 8 sym.toNat ++ rest) 8 24
    have value := shiftRight_field s.bs.accumulator 7 24
    simp only [reducePow, reduceSub, Nat.reduceAdd, reduceShiftLeft] at pre₁ pre₈ value
    rw [if_pos (by omega)]
    refine ⟨_, ?_, rd.shift_append (msbBits_length _ _) (by omega)⟩
    rw [value, rd.accumulator_eq, pre₈, code, mod_eq_of_lt low, UInt8.ofNat_toNat]
  simp only [if_neg low] at rd ⊢
  have code : msbPeek (msbBits 9 (0x80 * 2 + sym.toNat % 0x80) ++ rest) 9 =
      0x80 * 2 + sym.toNat % 0x80 := msbPeek_msbBits_append (by omega) rest
  have pre₁ := msbPeek_div (msbBits 9 (0x80 * 2 + sym.toNat % 0x80) ++ rest) 1 8
  have pre₂ := msbPeek_div (msbBits 9 (0x80 * 2 + sym.toNat % 0x80) ++ rest) 2 7
  have pre₉ := msbPeek_div (msbBits 9 (0x80 * 2 + sym.toNat % 0x80) ++ rest) 9 23
  have value := shiftRight_field s.bs.accumulator 7 23
  simp only [reducePow, reduceSub, Nat.reduceAdd, reduceShiftLeft] at pre₁ pre₂ pre₉ value
  rw [if_neg (by omega), if_pos (by omega)]
  refine ⟨_, ?_, rd.shift_append (msbBits_length _ _) (by omega)⟩
  have all : (0x80 * 2 + sym.toNat % 0x80) % 0x80 + 0x80 = sym.toNat := by omega
  rw [value, rd.accumulator_eq, pre₉, code, all, UInt8.ofNat_toNat]

theorem copyOffset_front {off : Nat} (covered : (copyOffsetTable lvl).Covers off)
    (rest : List Bool) : msbPeek ((copyOffsetTable lvl).spell off ++ rest) 2 = 3 := by
  have pre : ∀ c ∈ (copyOffsetTable lvl).words, 2 ≤ c.width ∧ c.pattern / 2 ^ (c.width - 2) = 3 := by
    unfold copyOffsetTable
    dsimp only
    split <;> decide
  obtain ⟨c, mem, _, -, spent⟩ := CodeTable.find?_covers covered
  obtain ⟨wide, three⟩ := pre c mem
  have matching := CodeWord.matches_spell ((copyOffsetTable lvl).proper c mem) off rest
  have split := msbPeek_div (c.spell off ++ rest) 2 (c.width - 2)
  rw [Nat.add_sub_cancel' wide, matching, three] at split
  rw [spent, ← split]

theorem copySource_eq {p src : Nat} (inside : src < mppcHistorySize lvl)
    (here : p < mppcHistorySize lvl) :
    ((p + 2 ^ 64 - copyDistance lvl p src) &&& (if lvl ≠ 0 then 0xFFFF else 0x1FFF)) = src := by
  unfold copyDistance mppcHistorySize at *
  by_cases rdp5 : lvl ≠ 0
  · simp only [if_pos rdp5] at *
    rw [show (0xFFFF : Nat) = 2 ^ 16 - 1 by rfl, and_two_pow_sub_one_eq_mod]
    omega
  simp only [if_neg rdp5] at *
  rw [show (0x1FFF : Nat) = 2 ^ 13 - 1 by rfl, and_two_pow_sub_one_eq_mod]
  omega

theorem mppcDecompressStep_copy {src len : Nat}
    (rd : Reads bytes s.bs (tokenBits lvl s.historyPtr (.copy src len) ++ rest))
    (ge : 3 ≤ len) (source : src < mppcHistorySize lvl)
    (inside : s.historyPtr + len ≤ mppcHistorySize lvl) (short : len < mppcHistorySize lvl) :
    ∃ bs', mppcDecompressStep lvl (mppcHistorySize lvl) s =
        .ok ⟨bs', lzCopy s.historyBuffer s.historyPtr src len, s.historyPtr + len⟩ ∧
        Reads bytes bs' rest := by
  have offCov := copyOffsetTable_covers (copyDistance_lt lvl s.historyPtr src)
  rw [tokenBits, append_assoc] at rd
  have pre := copyOffset_front lvl offCov ((lengthOfMatchTable lvl).spell len ++ rest)
  obtain ⟨notLow, notHigh⟩ := accumulator_of_front pre
  rw [← rd.accumulator_eq] at notLow notHigh
  obtain ⟨_, readOff, rd₁⟩ := readRow_spell (copyOffset_decodeRows lvl) offCov rd
  obtain ⟨bs₂, readLen, rd₂⟩ :=
    readRow_spell (lengthOfMatch_decodeRows lvl) (lengthOfMatchTable_covers ge short) rd₁
  refine ⟨bs₂, ?_, rd₂⟩
  unfold mppcDecompressStep
  simp only [if_neg (show ¬s.historyPtr > mppcHistorySize lvl - 1 by omega),
    if_neg notLow, if_neg notHigh, readOff, readLen,
    if_neg (show ¬s.historyPtr + len - 1 > mppcHistorySize lvl - 1 by omega)]
  rw [copySource_eq lvl source (by omega)]

theorem spell_length_ge {table : CodeTable} {n value : Nat}
    (widths : ∀ c ∈ table.words, n ≤ c.width + c.extra) (covered : table.Covers value) :
    n ≤ (table.spell value).length := by
  obtain ⟨c, mem, -, -, spent⟩ := CodeTable.find?_covers covered
  rw [spent, CodeWord.spell_length]
  exact widths c mem

theorem tokenBits_length_ge (p : Nat) (t : LzToken UInt8) : 8 ≤ (tokenBits lvl p t).length := by
  cases t with
  | literal sym =>
    simp only [tokenBits, literalBits]
    split <;> simp
  | copy src len =>
    have off : ∀ c ∈ (copyOffsetTable lvl).words, 8 ≤ c.width + c.extra := by
      unfold copyOffsetTable
      dsimp only
      split <;> decide
    have := spell_length_ge off (copyOffsetTable_covers (copyDistance_lt lvl p src))
    simp only [tokenBits, length_append]
    omega

theorem mppcDecompressLoop_tokens {mem : Mem UInt8} {p : Nat} {tokens : List (LzToken UInt8)}
    {block : List UInt8} (desc : Describes (MppcAllowed lvl) mem p tokens block)
    (bs : WBitStream) (fuel : Nat) (fits : p + block.length < mppcHistorySize lvl)
    (rd : Reads bytes bs (tokensBits lvl p tokens ++ rest)) (padding : rest.length < 8)
    (room : block.length < fuel) :
    ∃ bs', mppcDecompressLoop lvl (mppcHistorySize lvl) fuel ⟨bs, mem, p⟩ =
    (⟨bs', blit mem p block, p + block.length⟩, 1) := by
  induction desc generalizing bs fuel with
  | nil =>
    obtain ⟨fuel, rfl⟩ := exists_eq_succ_of_ne_zero (ne_of_gt room)
    refine ⟨bs, ?_⟩
    rw [mppcDecompressLoop, rd.remainingLength, if_neg]
    · rfl
    · simpa [tokensBits] using padding
  | @literal mem p sym tokens block _ ih =>
    obtain ⟨fuel, rfl⟩ := exists_eq_succ_of_ne_zero (Nat.ne_zero_of_lt room)
    rw [length_cons] at fits room
    have long := tokenBits_length_ge lvl p (.literal sym)
    have rem := rd.remainingLength
    rw [tokensBits, append_assoc] at rd rem
    rw [length_append] at rem
    obtain ⟨bs₁, step, rd₁⟩ :=
      mppcDecompressStep_literal lvl (s := ⟨bs, mem, p⟩) rd (by simp only; omega)
    obtain ⟨bs₂, loop⟩ := ih bs₁ fuel (by omega) rd₁ (by omega)
    refine ⟨bs₂, ?_⟩
    rw [mppcDecompressLoop, rem, if_pos (by omega), step]
    simp only [loop, blit, length_cons, add_assoc, add_comm 1]
  | @copy mem p src xs tokens block reps always _ ih =>
    obtain ⟨fuel, rfl⟩ := exists_eq_succ_of_ne_zero (Nat.ne_zero_of_lt room)
    rw [length_append] at fits room
    obtain ⟨ge, _⟩ := always
    have long := tokenBits_length_ge lvl p (.copy src xs.length)
    have rem := rd.remainingLength
    rw [tokensBits, append_assoc] at rd rem
    rw [length_append] at rem
    obtain ⟨bs₁, step, rd₁⟩ := mppcDecompressStep_copy lvl (s := ⟨bs, mem, p⟩) rd ge (by omega)
      (by simp only; omega) (by omega)
    obtain ⟨bs₂, loop⟩ := ih bs₁ fuel (by omega) rd₁ (by omega)
    refine ⟨bs₂, ?_⟩
    rw [mppcDecompressLoop, rem, if_pos (by omega), step, lzCopy_of_repeats reps]
    simp only [loop, blit_append, length_append, add_assoc]

end

end KvmServer.Codec
