import KvmServer.Codec.Ncrush
import KvmServer.Lib.LsbBits
import KvmServer.Lib.Lz

/-! # The NCRUSH codes

The tables of the decoder (`HuffTable…`) and those of the encoder (`HuffLength…`, `HuffCode…`)
describe the same codes. Match lengths and copy offsets are a symbol followed by extra bits. -/

namespace KvmServer.Codec
open Lib List Nat

def wordsOf : List Nat → List Nat
  | low :: high :: table => (low ||| high <<< 8) :: wordsOf table
  | _ => []

theorem getWord_wordsOf (table : List Nat) (i : Nat) (inside : i < (wordsOf table).length) :
    getWord table (2 * i) = (wordsOf table).getD i 0 := by
  fun_induction wordsOf table generalizing i with
  | case1 low high table ih =>
    cases i with
    | zero => rfl
    | succ i => exact ih i (lt_of_succ_lt_succ inside)
  | case2 => cases inside

def packEntry (symbol length : Nat) : Nat := length * 2 ^ 12 + symbol

def lecCode : LookupCode where
  width := 13
  entry := huffTableLEC
  pack := packEntry
  words := huffLengthLEC.zip (wordsOf huffCodeLEC)
  complete := by decide +kernel

def lomCode : LookupCode where
  width := 9
  entry := huffTableLOM
  pack := packEntry
  words := huffLengthLOM.zip huffCodeLOM
  complete := by decide +kernel

variable {symbol fst last : Nat}

theorem packEntry_symbol (lt : symbol < 2 ^ 12) (len : Nat) :
    packEntry symbol len &&& 0xFFF = symbol := by
  rw [show 0xFFF = 2 ^ 12 - 1 from rfl, and_two_pow_sub_one_eq_mod, packEntry, add_comm,
    add_mul_mod_self_right, mod_eq_of_lt lt]

theorem packEntry_length (lt : symbol < 2 ^ 12) (length : Nat) :
    packEntry symbol length >>> 12 = length := by
  rw [shiftRight_eq_div_pow, packEntry, mul_comm, mul_add_div (Nat.two_pow_pos 12),
    div_eq_of_lt lt, add_zero]

/-! ## Runs -/

theorem indexRuns_succ (le : fst ≤ last) (bits : Nat → Nat) :
    indexRuns fst (last + 1) bits = indexRuns fst last bits ++ replicate (2 ^ bits last) last := by
  have len : last + 1 - fst = last - fst + 1 := by omega
  rw [indexRuns, len, range'_concat, flatMap_append]
  simp [indexRuns, Nat.add_sub_cancel' le]

theorem indexRuns_getD {p : Nat} {bits : Nat → Nat} (inside : p < (indexRuns fst last bits).length) :
    ∃ i j, fst ≤ i ∧ i < last ∧ j < 2 ^ bits i ∧ p = (indexRuns fst i bits).length + j ∧
      (indexRuns fst last bits).getD p 0 = i := by
  induction last with
  | zero => simp [indexRuns] at inside
  | succ last ih =>
    by_cases le : fst ≤ last
    · rw [indexRuns_succ le] at inside ⊢
      rw [length_append, length_replicate] at inside
      by_cases pre : p < (indexRuns fst last bits).length
      · obtain ⟨i, j, lo, _, lt, position, value⟩ := ih pre
        refine ⟨i, j, lo, by omega, lt, position, ?_⟩
        rw [getD_append _ _ _ _ pre]
        exact value
      refine ⟨last, p - (indexRuns fst last bits).length, le, by omega, by omega, by omega, ?_⟩
      rw [getD_append_right _ _ _ _ (by omega), getD_replicate _ (by omega)]
    · have empty : last + 1 - fst = 0 := by omega
      simp [indexRuns, empty] at inside

theorem lomRuns_length : lomRuns.length = 768 := by decide +kernel

theorem lomRuns_aligned :
    ∀ i, i < 28 → (indexRuns 0 i (lomBitsLUT.getD · 0)).length % 2 ^ lomBitsLUT.getD i 0 = 0 ∧
      lomBaseLUT.getD i 0 = (indexRuns 0 i (lomBitsLUT.getD · 0)).length + 2 := by
  decide +kernel

theorem and_mask_of_aligned {st k j : Nat} (aligned : st % 2 ^ k = 0) (lt : j < 2 ^ k) :
    (st + j) &&& (2 ^ k - 1) = j := by
  rw [and_two_pow_sub_one_eq_mod, add_mod, aligned, zero_add, mod_mod, mod_eq_of_lt lt]

theorem generatedTableLOM_spec {length : Nat} (lo : 2 ≤ length) (up : length - 2 < 768) :
    generatedTableLOM length < 28 ∧
    ((length - 2) &&& (2 ^ lomBitsLUT.getD (generatedTableLOM length) 0 - 1)) +
        lomBaseLUT.getD (generatedTableLOM length) 0 = length := by
  have inside : length - 2 < (indexRuns 0 28 (lomBitsLUT.getD · 0)).length := by
    rw [← lomRuns, lomRuns_length]
    exact up
  obtain ⟨i, j, -, bound, lt, position, value⟩ := indexRuns_getD inside
  have idx : generatedTableLOM length = i := by
    rw [generatedTableLOM, if_pos lo, lomRuns, value]
  obtain ⟨aligned, base⟩ := lomRuns_aligned i bound
  rw [idx, position, and_mask_of_aligned aligned lt, base]
  exact ⟨bound, by omega⟩

/-! ## Copy offsets -/

theorem nearRuns_length : nearRuns.length = 256 := by decide +kernel

theorem farRuns_length : farRuns.length = 510 := by decide +kernel

theorem nearRuns_aligned : ∀ i, i < 16 →
    (indexRuns 0 i (copyOffsetBitsLUT.getD · 0)).length % 2 ^ copyOffsetBitsLUT.getD i 0 = 0 ∧
      copyOffsetBaseLUT.getD i 0 = (indexRuns 0 i (copyOffsetBitsLUT.getD · 0)).length + 1 := by
  decide +kernel

theorem farRuns_aligned : ∀ i, i < 32 → 16 ≤ i →
    128 * ((indexRuns 16 i fun i => copyOffsetBitsLUT.getD i 0 - 7).length + 2) %
    2 ^ copyOffsetBitsLUT.getD i 0 = 0 ∧ copyOffsetBaseLUT.getD i 0 = 128 *
      ((indexRuns 16 i fun i => copyOffsetBitsLUT.getD i 0 - 7).length + 2) + 1 ∧
      7 ≤ copyOffsetBitsLUT.getD i 0 := by
  decide +kernel

theorem generatedTableCopyOffset_eq (l : Nat) :
    generatedTableCopyOffset l = if 260 ≤ l ∧ l < 770 then farRuns.getD (l - 260) 0
      else if 2 ≤ l then nearRuns.getD (l - 2) 0 else 0 := by
  have st : nearRuns.length / 128 + 2 + 256 = 260 := by rw [nearRuns_length]
  have stop : 260 + farRuns.length = 770 := by rw [farRuns_length]
  unfold generatedTableCopyOffset
  simp only [st, stop]

def copyOffsetIndex (copyOffset : Nat) : Nat :=
  generatedTableCopyOffset ((if copyOffset ≥ 256 then copyOffset >>> 7 + 256 else copyOffset) + 2)

theorem copyOffsetIndex_spec {copyOff : Nat} (lt : copyOff < 65536) : copyOffsetIndex copyOff < 32 ∧
      (copyOff &&& (2 ^ copyOffsetBitsLUT.getD (copyOffsetIndex copyOff) 0 - 1)) +
        copyOffsetBaseLUT.getD (copyOffsetIndex copyOff) 0 = copyOff + 1 := by
  by_cases far : copyOff ≥ 256
  · -- seven bits below the position in the runs
    have inside :
        copyOff / 128 - 2 < (indexRuns 16 32 fun i => copyOffsetBitsLUT.getD i 0 - 7).length := by
      rw [← farRuns, farRuns_length]
      omega
    obtain ⟨i, j, lo, bound, short, position, value⟩ := indexRuns_getD inside
    obtain ⟨aligned, base, seven⟩ := farRuns_aligned i bound lo
    have idx : copyOffsetIndex copyOff = i := by
      have position : copyOff / 2 ^ 7 + 256 + 2 - 260 = copyOff / 128 - 2 := by omega
      rw [copyOffsetIndex, if_pos far, shiftRight_eq_div_pow, generatedTableCopyOffset_eq,
        if_pos (by omega), position, farRuns, value]
    have extra : 128 * j + copyOff % 128 < 2 ^ copyOffsetBitsLUT.getD i 0 := by
      rw [← Nat.sub_add_cancel seven, pow_add]
      omega
    have run : copyOff = 128 * ((indexRuns 16 i fun i => copyOffsetBitsLUT.getD i 0 - 7).length + 2) +
        (128 * j + copyOff % 128) := by omega
    have low := and_mask_of_aligned aligned extra
    rw [← run] at low
    rw [idx, low, base]
    exact ⟨bound, by omega⟩
  have inside : copyOff < (indexRuns 0 16 (copyOffsetBitsLUT.getD · 0)).length := by
    rw [← nearRuns, nearRuns_length]
    omega
  obtain ⟨i, j, -, bound, short, position, value⟩ := indexRuns_getD inside
  obtain ⟨aligned, base⟩ := nearRuns_aligned i bound
  have idx : copyOffsetIndex copyOff = i := by
    rw [copyOffsetIndex, if_neg far, generatedTableCopyOffset_eq, if_neg (by omega),
      if_pos (by omega), Nat.add_sub_cancel, nearRuns, value]
  rw [idx, position, and_mask_of_aligned aligned short, base]
  exact ⟨by omega, by omega⟩

theorem ncrushGenerateTables_eq :
    ncrushGenerateTables = some (generatedTableCopyOffset, generatedTableLOM) := by
  have lens : (range' 2 4094).all generatedLengthOk = true := by
    rw [all_eq_true]
    intro len mem
    rw [mem_range'_1] at mem
    by_cases short : len - 2 < 768
    · obtain ⟨_, sum⟩ := generatedTableLOM_spec mem.1 short
      have sizes : lomBitsLUT.length = 30 ∧ lomBaseLUT.length = 30 := by decide
      rw [Nat.and_comm] at sum
      simp only [generatedLengthOk, if_pos short, sizes, sum]
      simp
      omega
    have mask : (2 ^ lomBitsLUT.getD 28 0 - 1) &&& (len - 2) = len - 2 := by
      rw [show lomBitsLUT.getD 28 0 = 14 from rfl, Nat.and_comm, and_two_pow_sub_one_eq_mod]
      omega
    simp only [generatedLengthOk, if_neg short, mask]
    simp [lomBitsLUT, lomBaseLUT]
    omega
  rw [ncrushGenerateTables, lens, nearRuns_length, farRuns_length]
  rfl

end KvmServer.Codec
