import Mathlib

/-! # Integers as bytes -/

namespace KvmServer.Lib
open List Nat

def leBytes : Nat → Nat → List UInt8
  | 0, _ => []
  | n + 1, x => UInt8.ofNat x :: leBytes n (x / 2 ^ 8)

def leValue : List UInt8 → Nat
  | [] => 0
  | byte :: bytes => byte.toNat + 2 ^ 8 * leValue bytes

@[simp] theorem leBytes_length (n x : Nat) : (leBytes n x).length = n := by
  induction n generalizing x with
  | zero => rfl
  | succ n ih => rw [leBytes, length_cons, ih]

theorem leValue_leBytes (n x : Nat) : leValue (leBytes n x) = x % 2 ^ (8 * n) := by
  induction n generalizing x with
  | zero => rw [mul_zero, pow_zero, mod_one]; rfl
  | succ n ih =>
    rw [leBytes, leValue, ih, mul_succ, add_comm (8 * n), pow_add, mod_mul]
    rfl

variable {x byte i mask other : Nat} (bytes : List UInt8)

theorem leValue_leBytes_of_lt {n : Nat} (fits : x < 2 ^ (8 * n)) : leValue (leBytes n x) = x := by
  rw [leValue_leBytes, mod_eq_of_lt fits]

def beBytes (n x : Nat) : List UInt8 := (leBytes n x).reverse

def beValue (bytes : List UInt8) : Nat := leValue bytes.reverse

@[simp] theorem beBytes_length (n x : Nat) : (beBytes n x).length = n := by
  rw [beBytes, length_reverse, leBytes_length]

@[simp] theorem beValue_beBytes (n x : Nat) : beValue (beBytes n x) = x % 2 ^ (8 * n) := by
  rw [beValue, beBytes, reverse_reverse, leValue_leBytes]

theorem beBytes_one (x : Nat) : beBytes 1 x = [UInt8.ofNat x] := rfl

theorem beBytes_two (x : Nat) : beBytes 2 x = [UInt8.ofNat (x / 2 ^ 8), UInt8.ofNat x] := rfl

theorem leValue_lt : leValue bytes < 2 ^ (8 * bytes.length) := by
  induction bytes with
  | nil => exact Nat.one_pos
  | cons byte bytes _ =>
    have lt := byte.toNat_lt
    rw [leValue, length_cons, mul_succ, pow_add]
    omega

theorem leValue_append (fst second : List UInt8) :
    leValue (fst ++ second) = leValue fst + 2 ^ (8 * fst.length) * leValue second := by
  induction fst with
  | nil => rw [nil_append, length_nil, mul_zero, pow_zero, one_mul, leValue, zero_add]
  | cons _ fst ih =>
    rw [cons_append, leValue, leValue, ih, length_cons, mul_succ, pow_add,
      mul_add, add_assoc, mul_assoc, mul_left_comm (2 ^ 8)]

theorem beValue_cons (byte : UInt8) (bytes : List UInt8) :
    beValue (byte :: bytes) = byte.toNat * 2 ^ (8 * bytes.length) + beValue bytes := by
  rw [beValue, reverse_cons, leValue_append, length_reverse, leValue, leValue, mul_zero, add_zero,
    mul_comm, add_comm]
  rfl

theorem leBytes_leValue : leBytes bytes.length (leValue bytes) = bytes := by
  induction bytes with
  | nil => rfl
  | cons byte bytes ih =>
    have lt := byte.toNat_lt
    have low : UInt8.ofNat (byte.toNat + 2 ^ 8 * leValue bytes) = byte :=
      UInt8.toNat_inj.mp (by rw [UInt8.toNat_ofNat']; omega)
    have high : (byte.toNat + 2 ^ 8 * leValue bytes) / 2 ^ 8 = leValue bytes := by
      omega
    rw [length_cons, leValue, leBytes, low, high, ih]

theorem beBytes_beValue : beBytes bytes.length (beValue bytes) = bytes := by
  rw [beBytes, beValue, ← length_reverse, leBytes_leValue, reverse_reverse]

/-! ## Single bytes -/

def byteAt (i x : Nat) : Nat := x >>> (8 * i) &&& 0xFF

theorem byteAt_eq (i x : Nat) : byteAt i x = x / 2 ^ (8 * i) % 2 ^ 8 := by
  rw [byteAt, shiftRight_eq_div_pow]
  exact and_two_pow_sub_one_eq_mod _ 8

theorem byteAt_shiftLeft_self (i : Nat) (lt : byte < 2 ^ 8) : byteAt i (byte <<< (8 * i)) = byte := by
  rw [byteAt_eq, shiftLeft_eq, Nat.mul_div_cancel _ (Nat.two_pow_pos _), mod_eq_of_lt lt]

theorem byteAt_shiftLeft_of_ne {k : Nat} (lt : byte < 2 ^ 8) (apart : i ≠ k) :
    byteAt i (byte <<< (8 * k)) = 0 := by
  apply eq_of_testBit_eq
  intro j
  rw [byteAt, testBit_and, testBit_shiftRight, testBit_shiftLeft, zero_testBit,
    show (0xFF : Nat) = 2 ^ 8 - 1 from rfl, testBit_two_pow_sub_one]
  by_cases inByte : j < 8
  · by_cases hi : 8 * i + j ≥ 8 * k
    · -- the byte ends eight bits above `8 * k`
      have high : byte.testBit (8 * i + j - 8 * k) = false :=
        testBit_lt_two_pow (lt_of_lt_of_le lt (Nat.pow_le_pow_right (by decide) (by omega)))
      rw [high, Bool.and_false, Bool.false_and]
    · rw [decide_eq_false hi, Bool.false_and, Bool.false_and]
  · rw [decide_eq_false inByte, Bool.and_false]

theorem byteAt_masked (x : Nat) (all : byteAt i mask = 0xFF) (away : byteAt i other = 0) :
    byteAt i (x &&& mask ||| other) = byteAt i x := by
  unfold byteAt at all away ⊢
  rw [shiftRight_or_distrib, and_or_distrib_right, away, or_zero, shiftRight_and_distrib,
    Nat.and_assoc, all]

theorem byteAt_replaced (x : Nat) (cleared : byteAt i mask = 0) :
    byteAt i (x &&& mask ||| other) = byteAt i other := by
  unfold byteAt at cleared ⊢
  rw [shiftRight_or_distrib, and_or_distrib_right, shiftRight_and_distrib,
    Nat.and_assoc, cleared, and_zero, zero_or]

theorem eq_of_byteAt {y : Nat} (ltX : x < 2 ^ 24) (ltY : y < 2 ^ 24) (low : byteAt 0 x = byteAt 0 y)
    (mid : byteAt 1 x = byteAt 1 y) (high : byteAt 2 x = byteAt 2 y) : x = y := by
  rw [byteAt_eq, byteAt_eq] at low mid high
  omega

theorem forall_byte {P : UInt8 → Prop} (all : ∀ n < 2 ^ 8, P (UInt8.ofNat n)) (byte : UInt8) :
    P byte := by
  have this := all byte.toNat byte.toNat_lt
  rwa [UInt8.ofNat_toNat] at this

theorem highBit_ne_zero_iff (byte : UInt8) : byte &&& 0x80 ≠ 0 ↔ 0x80 ≤ byte.toNat := by
  apply @forall_byte fun byte => byte &&& 0x80 ≠ 0 ↔ 0x80 ≤ byte.toNat
  decide +kernel

theorem lowBits_toNat (byte : UInt8) : (byte &&& 0x7F).toNat = byte.toNat % 0x80 := by
  exact and_two_pow_sub_one_eq_mod _ 7

theorem shiftRight_field (x width i : Nat) :
    (x &&& (2 ^ width - 1) <<< i) >>> i = x / 2 ^ i % 2 ^ width := by
  rw [shiftRight_and_distrib, shiftLeft_shiftRight, and_two_pow_sub_one_eq_mod, shiftRight_eq_div_pow]

theorem shiftLeft_field {width : Nat} (i : Nat) (lt : x < 2 ^ width) :
    x <<< i &&& (2 ^ width - 1) <<< i = x <<< i := by
  rw [← shiftLeft_and_distrib, and_two_pow_sub_one_of_lt_two_pow lt]

theorem or_shiftLeft_eq {low : Nat} (high : Nat) (lt : low < 2 ^ i) :
    low ||| high <<< i = low + high * 2 ^ i := by
  rw [Nat.or_comm, ← shiftLeft_add_eq_or_of_lt lt, shiftLeft_eq, add_comm]

end KvmServer.Lib
