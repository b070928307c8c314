import KvmServer.Codec.Mppc
import KvmServer.Lib.PrefixCode
import KvmServer.Lib.Lz

/-! # The codes of MPPC

The mask-and-shift tables of both directions of `mppc.c` are two renderings of the same
prefix-free codes.  Writing a value with one and reading it with the other is therefore a round
trip on the bit string. -/

namespace KvmServer.Codec
open Lib List Nat

def DecodeRow.Spells (row : DecodeRow) (c : CodeWord) : Prop :=
  c.width + c.extra < 32 ∧ c.pattern < 2 ^ c.width ∧
    row.mask = 2 ^ 32 - 2 ^ (32 - c.width) ∧ row.pattern = c.pattern * 2 ^ (32 - c.width) ∧
    row.low = 2 ^ c.extra - 1 ∧ (c.extra = 0 ∨ row.shift = 32 - (c.width + c.extra)) ∧
    row.base = c.base ∧ row.nbits = c.width + c.extra

instance (row : DecodeRow) (c : CodeWord) : Decidable (row.Spells c) :=
  inferInstanceAs (Decidable (_ ∧ _))

/-- The row covers the values of `c` below `bound`, and its `or` of code and masked value is the
number spelled by `c`. -/
def EncodeRow.Spells (bound : Nat) (row : EncodeRow) (c : CodeWord) : Prop :=
  c.width + c.extra < 32 ∧ c.pattern < 2 ^ c.width ∧ row.lo = c.base ∧
    (row.hi = c.base + 2 ^ c.extra ∨ bound ≤ row.hi ∧ bound ≤ c.base + 2 ^ c.extra) ∧
    row.code = c.pattern * 2 ^ c.extra ∧ row.low = 2 ^ c.extra - 1 ∧ row.sub ≤ row.lo ∧
    (row.lo - row.sub) % 2 ^ c.extra = 0 ∧ row.nbits = c.width + c.extra

instance (bound : Nat) (row : EncodeRow) (c : CodeWord) : Decidable (row.Spells bound c) :=
  inferInstanceAs (Decidable (_ ∧ _))

/-! ## Reading a row -/

variable {c : CodeWord} {rows : List DecodeRow} {tbl : CodeTable} {bs : WBitStream} {bound : Nat}
variable {row : DecodeRow} {words : List CodeWord} {bytes : List UInt8} {rest : List Bool} {level : Nat}

theorem DecodeRow.Spells.test (spells : row.Spells c) (bits : List Bool) :
    (msbPeek bits 32 &&& row.mask == row.pattern) = decide (c.Matches bits) := by
  obtain ⟨_, -, mask, pattern, -⟩ := spells
  have pre := msbPeek_div bits c.width (32 - c.width)
  rw [Nat.add_sub_cancel' (by omega)] at pre
  rw [mask, pattern, and_high_mask (msbPeek_lt bits 32) (by omega), pre, Bool.eq_iff_iff,
    beq_iff_eq, decide_eq_true_iff, CodeWord.Matches]
  exact Nat.mul_left_inj (Nat.two_pow_pos _).ne'

theorem DecodeRow.Spells.value (spells : row.Spells c) (bits : List Bool) :
    (msbPeek bits 32 >>> row.shift &&& row.low) + row.base = c.value bits := by
  obtain ⟨_, -, -, -, low, shift, base, -⟩ := spells
  rw [low, base, shiftRight_eq_div_pow, and_two_pow_sub_one_eq_mod, CodeWord.value]
  cases shift with
  | inl none => rw [none, pow_zero, mod_one, msbPeek_zero]
  | inr shift =>
    have field := msbPeek_field bits c.width c.extra (32 - (c.width + c.extra))
    rw [Nat.add_sub_cancel' (by omega)] at field
    rw [shift, field]

theorem spells_short (spells : List.Forall₂ DecodeRow.Spells rows words) (mem : c ∈ words) :
    c.width + c.extra < 32 := by
  induction spells with
  | nil => cases mem
  | cons fst _ ih =>
    cases mem with
    | head => exact fst.1
    | tail _ later => exact ih later

theorem readRow_eq (spells : List.Forall₂ DecodeRow.Spells rows tbl.words) (win : Window bytes bs rest) :
    readRow rows bs = (tbl.read rest).map fun field => (field.1, bitStreamShift bs field.2) := by
  rw [readRow, win.accumulator_eq, CodeTable.read]
  generalize tbl.words = words at spells
  induction spells with
  | nil => rfl
  | @cons row c rows words fst _ ih =>
    by_cases hit : c.Matches rest
    · have nbits : row.nbits = c.width + c.extra := fst.2.2.2.2.2.2.2
      rw [find?_cons_of_pos (by rw [fst.test]; simpa using hit), find?_cons_of_pos (by simpa using hit)]
      simp only [Option.map_some, fst.value, nbits]
    rw [find?_cons_of_neg (by rw [fst.test]; simpa using hit), find?_cons_of_neg (by simpa using hit)]
    exact ih

variable {value : Nat}

theorem readRow_spell (spells : List.Forall₂ DecodeRow.Spells rows tbl.words)
    (covered : tbl.Covers value) (rd : Reads bytes bs (tbl.spell value ++ rest)) :
    ∃ bs', readRow rows bs = some (value, bs') ∧ Reads bytes bs' rest := by
  obtain ⟨c, mem, -, -, spent⟩ := CodeTable.find?_covers covered
  refine ⟨bitStreamShift bs (tbl.spell value).length, ?_, ?_⟩
  · rw [readRow_eq spells rd.window, CodeTable.read_spell covered]
    rfl
  · exact rd.shift_append rfl (by rw [spent, CodeWord.spell_length]; exact spells_short spells mem)

theorem EncodeRow.Spells.test {row : EncodeRow} (spells : row.Spells bound c) (lt : value < bound) :
    (row.lo ≤ value ∧ value < row.hi) ↔ c.Covers value := by
  obtain ⟨-, -, lo, hi, -⟩ := spells
  unfold CodeWord.Covers
  omega

theorem find?_encodeRow {rows : List EncodeRow}
    (spells : List.Forall₂ (EncodeRow.Spells bound) rows words) (lt : value < bound)
    (got : words.find? (fun d => decide (d.Covers value)) = some c) :
    ∃ row, rows.find? (fun row => decide (row.lo ≤ value ∧ value < row.hi)) = some row ∧
    row.Spells bound c := by
  induction spells with
  | nil => simp at got
  | @cons row d rows words fst _ ih =>
    have test := fst.test lt
    by_cases hit : d.Covers value
    · rw [find?_cons_of_pos (by simpa using hit), Option.some.injEq] at got
      subst got
      exact ⟨row, find?_cons_of_pos (by simpa using test.mpr hit), fst⟩
    rw [find?_cons_of_neg (by simpa using hit)] at got
    obtain ⟨row', got', spells'⟩ := ih got
    refine ⟨row', ?_, spells'⟩
    rw [find?_cons_of_neg (by rw [decide_eq_true_iff, test]; exact hit), got']

theorem EncodeRow.Spells.bits {row : EncodeRow} (spells : row.Spells bound c) (covers : c.Covers value) :
    (row.code ||| ((value - row.sub) &&& row.low)) = c.pattern * 2 ^ c.extra + (value - c.base) := by
  obtain ⟨-, -, lo, -, code, low, sub, aligned, -⟩ := spells
  obtain ⟨_, _⟩ := covers
  have rem : (value - row.sub) % 2 ^ c.extra = value - c.base := by
    rw [show value - row.sub = (value - c.base) + (row.lo - row.sub) by omega, add_mod, aligned,
      add_zero, mod_mod, mod_eq_of_lt (by omega)]
  rw [code, low, and_two_pow_sub_one_eq_mod, rem, mul_two_pow_or (by omega)]

theorem Writes.writeRow {rows : List EncodeRow}
    (spells : List.Forall₂ (EncodeRow.Spells bound) rows tbl.words) (lt : value < bound)
    (covered : tbl.Covers value) {bits : List Bool}
    (writes : Writes bs bits) (room : bits.length + 31 < 2 ^ 32) :
    Writes (writeRow rows bs value) (bits ++ tbl.spell value) := by
  obtain ⟨c, -, covers, got, spent⟩ := CodeTable.find?_covers covered
  obtain ⟨_, rowGot, rowSpells⟩ := find?_encodeRow spells lt got
  have code := rowSpells.bits covers
  obtain ⟨_, proper, -, -, -, -, -, -, nbits⟩ := rowSpells
  obtain ⟨_, _⟩ := covers
  have split : msbBits (c.width + c.extra) (c.pattern * 2 ^ c.extra + (value - c.base)) =
      c.spell value := msbBits_add (by omega)
  have fits : c.pattern * 2 ^ c.extra + (value - c.base) < 2 ^ (c.width + c.extra) := by
    have := Nat.mul_le_mul_right (2 ^ c.extra) (succ_le_of_lt proper)
    rw [pow_add]
    rw [succ_mul] at this
    omega
  rw [Codec.writeRow, rowGot, spent, ← split]
  simp only [code, nbits]
  exact writes.writeBits fits (by omega) (by omega)

/-! ## The tables -/

variable (compressionLevel : Nat)

def mppcHistorySize : Nat :=
  if compressionLevel ≠ 0 then 65536 else 8192

def copyOffsetTable : CodeTable where
  words :=
    if compressionLevel ≠ 0 then
      [⟨5, 0b11111, 6, 0⟩, ⟨5, 0b11110, 8, 64⟩, ⟨4, 0b1110, 11, 320⟩, ⟨3, 0b110, 16, 2368⟩]
    else [⟨4, 0b1111, 6, 0⟩, ⟨4, 0b1110, 8, 64⟩, ⟨3, 0b110, 13, 320⟩]
  proper := by split <;> decide
  prefixFree := by split <;> decide

def runWord (width : Nat) : CodeWord := ⟨width, 2 ^ width - 2, width, 2 ^ width⟩

def lengthOfMatchTable : CodeTable where
  words := ⟨1, 0, 0, 3⟩ ::
    ((List.range (if compressionLevel ≠ 0 then 14 else 11)).map fun i => runWord (i + 2))
  proper := by split <;> decide
  prefixFree := by split <;> decide

theorem copyOffset_decodeRows (level : Nat) :
    List.Forall₂ DecodeRow.Spells (copyOffsetDecodeRows level) (copyOffsetTable level).words := by
  unfold copyOffsetDecodeRows copyOffsetTable
  by_cases rdp5 : level ≠ 0
  · simp only [if_pos rdp5]
    decide
  simp only [if_neg rdp5]
  decide

theorem copyOffset_encodeRows (level : Nat) : List.Forall₂ (EncodeRow.Spells (mppcHistorySize level))
      (copyOffsetEncodeRows level) (copyOffsetTable level).words := by
  unfold copyOffsetEncodeRows copyOffsetTable mppcHistorySize
  by_cases rdp5 : level ≠ 0
  · simp only [if_pos rdp5]
    decide
  simp only [if_neg rdp5]
  decide

theorem lengthOfMatch_decodeRows (level : Nat) :
    List.Forall₂ DecodeRow.Spells (lengthOfMatchDecodeRows level)
      (lengthOfMatchTable level).words := by
  unfold lengthOfMatchDecodeRows lengthOfMatchTable
  by_cases rdp5 : level ≠ 0
  · simp only [if_pos rdp5]
    decide
  simp only [if_neg rdp5]
  decide

theorem lengthOfMatch_encodeRows (level : Nat) : List.Forall₂ (EncodeRow.Spells (mppcHistorySize level))
      (lengthOfMatchEncodeRows level) (lengthOfMatchTable level).words := by
  unfold lengthOfMatchEncodeRows lengthOfMatchTable mppcHistorySize
  by_cases rdp5 : level ≠ 0
  · simp only [if_pos rdp5]
    decide
  simp only [if_neg rdp5]
  decide

theorem copyOffsetTable_covers {offset : Nat} (lt : offset < mppcHistorySize level) :
    (copyOffsetTable level).Covers offset := by
  unfold mppcHistorySize at lt
  unfold copyOffsetTable CodeTable.Covers CodeWord.Covers
  split at lt
  · rename_i rdp5
    simp only [if_pos rdp5, mem_cons, not_mem_nil, exists_eq_or_imp, or_false, exists_eq_left]
    omega
  rename_i rdp4
  simp only [if_neg rdp4, mem_cons, not_mem_nil, exists_eq_or_imp, or_false, exists_eq_left]
  omega

theorem lengthOfMatchTable_covers {length : Nat} (ge : 3 ≤ length)
    (lt : length < mppcHistorySize level) : (lengthOfMatchTable level).Covers length := by
  rcases Nat.lt_or_ge length 4 with three | more
  · exact ⟨⟨1, 0, 0, 3⟩, mem_cons_self, by simp [CodeWord.Covers]; omega⟩
  -- the entry is the one for the position of the leading bit
  have pos : length ≠ 0 := by omega
  have lo := log2_self_le pos
  have up : length < 2 ^ (length.log2 + 1) := lt_log2_self
  have two : 2 ≤ length.log2 := (le_log2 pos).mpr (by omega)
  refine ⟨runWord length.log2, ?_, ?_⟩
  · refine mem_cons_of_mem _ (mem_map.mpr ⟨length.log2 - 2, mem_range.mpr ?_, ?_⟩)
    · unfold mppcHistorySize at lt
      by_cases rdp5 : level ≠ 0
      · rw [if_pos rdp5] at lt ⊢
        have : length.log2 < 16 := (log2_lt pos).mpr (by omega)
        omega
      rw [if_neg rdp5] at lt ⊢
      have : length.log2 < 13 := (log2_lt pos).mpr (by omega)
      omega
    · rw [Nat.sub_add_cancel two]
  · rw [pow_succ] at up
    exact ⟨lo, by simp only [runWord]; omega⟩

/-! ## Tokens -/

/-- A copy has at least three bytes and stays inside the history. -/
def MppcAllowed (compressionLevel _dst src len : Nat) : Prop :=
  3 ≤ len ∧ src + len ≤ mppcHistorySize compressionLevel

def literalBits (sym : UInt8) : List Bool :=
  if sym.toNat < 0x80 then msbBits 8 sym.toNat else msbBits 9 (0x80 * 2 + sym.toNat % 0x80)

def copyDistance (compressionLevel p src : Nat) : Nat :=
  (p + mppcHistorySize compressionLevel - src) % mppcHistorySize compressionLevel

theorem copyDistance_lt (level p src : Nat) : copyDistance level p src < mppcHistorySize level :=
  mod_lt _ (by unfold mppcHistorySize; split <;> omega)

def tokenBits (compressionLevel p : Nat) : LzToken UInt8 → List Bool
  | .literal sym => literalBits sym
  | .copy src len =>
    (copyOffsetTable compressionLevel).spell (copyDistance compressionLevel p src) ++
      (lengthOfMatchTable compressionLevel).spell len

def tokensBits (compressionLevel : Nat) : Nat → List (LzToken UInt8) → List Bool
  | _, [] => []
  | p, t :: tiles => tokenBits compressionLevel p t ++ tokensBits compressionLevel (p + t.advance) tiles

theorem tokensBits_snoc (level p : Nat) (tiles : List (LzToken UInt8)) (t : LzToken UInt8) :
    tokensBits level p (tiles ++ [t]) = tokensBits level p tiles ++ tokenBits level
    (p + (tiles.map LzToken.advance).sum) t := by
  induction tiles generalizing p with
  | nil => simp [tokensBits]
  | cons _ tiles ih =>
    simp [tokensBits, ih, add_assoc]

theorem Writes.writeLiteral {bits : List Bool} (writes : Writes bs bits)
    (sym : UInt8) (room : bits.length + 9 < 2 ^ 32) :
    Writes (writeLiteral bs sym) (bits ++ literalBits sym) := by
  unfold Codec.writeLiteral literalBits
  by_cases low : sym.toNat < 0x80
  · simp only [if_pos low]
    exact writes.writeBits (by omega) (by omega) (by omega)
  have code : 0x100 ||| (sym.toNat &&& 0x7F) = 0x80 * 2 + sym.toNat % 0x80 := by
    rw [show (0x7F : Nat) = 2 ^ 7 - 1 by rfl, and_two_pow_sub_one_eq_mod]
    exact mul_two_pow_or (a := 2) (k := 7) (mod_lt _ (by omega))
  simp only [if_neg low, code]
  exact writes.writeBits (by omega) (by omega) (by omega)

theorem literalBits_length_le (sym : UInt8) : (literalBits sym).length ≤ 9 := by
  unfold literalBits
  split <;> simp

theorem spell_length_le {n : Nat} (widths : ∀ c ∈ tbl.words, c.width + c.extra ≤ n) (value : Nat) :
    (tbl.spell value).length ≤ n := by
  unfold CodeTable.spell
  split
  · rename_i c got
    rw [CodeWord.spell_length]
    exact widths c (mem_of_find?_eq_some got)
  · simp

theorem tokenBits_length_le (level p : Nat) (t : LzToken UInt8) : (tokenBits level p t).length ≤ 49 := by
  cases t with
  | literal sym =>
    have := literalBits_length_le sym
    simp only [tokenBits]
    omega
  | copy src len =>
    have off : ∀ c ∈ (copyOffsetTable level).words, c.width + c.extra ≤ 19 := by
      unfold copyOffsetTable
      dsimp only
      split <;> decide
    have length : ∀ c ∈ (lengthOfMatchTable level).words, c.width + c.extra ≤ 30 := by
      unfold lengthOfMatchTable
      dsimp only
      split <;> decide
    have := spell_length_le off (copyDistance level p src)
    have := spell_length_le length len
    simp only [tokenBits, length_append]
    omega

end KvmServer.Codec
