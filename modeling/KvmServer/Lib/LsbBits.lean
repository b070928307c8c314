import KvmServer.Lib.Bits

/-! # Bit strings, least significant bit first

`lsbBits` spells a number and `lsbValue` reads a bit string back.  A `LookupCode` is a prefix code
that a decoder reads through a table with `width` bits. -/

namespace KvmServer.Lib
open List Nat

/-- The low `n` bits of `v`, least significant first. -/
def lsbBits : Nat → Nat → List Bool
  | 0, _ => []
  | n + 1, v => v.testBit 0 :: lsbBits n (v / 2)

def lsbValue : List Bool → Nat
  | [] => 0
  | b :: l => b.toNat + 2 * lsbValue l

@[simp] theorem lsbBits_length (n v : Nat) : (lsbBits n v).length = n := by
  induction n generalizing v with
  | zero => rfl
  | succ n ih => simp [lsbBits, ih]

@[simp] theorem lsbValue_nil : lsbValue [] = 0 := rfl

variable (l : List Bool)

theorem lsbValue_lt : lsbValue l < 2 ^ l.length := by
  induction l with
  | nil => decide
  | cons b l _ =>
    have head : b.toNat ≤ 1 := Bool.toNat_le b
    rw [lsbValue, length_cons, pow_succ]
    omega

theorem lsbValue_append (l r : List Bool) :
    lsbValue (l ++ r) = lsbValue l + 2 ^ l.length * lsbValue r := by
  induction l with
  | nil => simp
  | cons b l ih =>
    rw [cons_append, lsbValue, lsbValue, ih, length_cons]
    ring

theorem lsbValue_lsbBits (n v : Nat) : lsbValue (lsbBits n v) = v % 2 ^ n := by
  induction n generalizing v with
  | zero => simp [lsbBits, mod_one]
  | succ n ih =>
    rw [lsbBits, lsbValue, ih, toNat_testBit, pow_zero, Nat.div_one, pow_succ, mul_comm (2 ^ n), mod_mul]

theorem lsbValue_lsbBits_of_lt {n v : Nat} (lt : v < 2 ^ n) : lsbValue (lsbBits n v) = v := by
  rw [lsbValue_lsbBits, mod_eq_of_lt lt]

theorem toNat_add_two_mul_div (b : Bool) (n : Nat) : (b.toNat + 2 * n) / 2 = n := by
  cases b
  · simp
  rw [Bool.toNat_true]
  omega

theorem lsbBits_lsbValue : lsbBits l.length (lsbValue l) = l := by
  induction l with
  | nil => rfl
  | cons b l ih =>
    rw [length_cons, lsbBits, lsbValue, toNat_add_two_mul_div, ih]
    cases b <;> simp [testBit_zero]

theorem lsbValue_drop (n : Nat) : lsbValue (l.drop n) = lsbValue l / 2 ^ n := by
  induction n generalizing l with
  | zero => simp
  | succ n ih =>
    cases l with
    | nil => simp
    | cons b l =>
      rw [drop_succ_cons, ih, lsbValue, pow_succ', ← Nat.div_div_eq_div_mul, toNat_add_two_mul_div]

theorem lsbBits_add {a b x y : Nat} (lt : x < 2 ^ a) :
    lsbBits (a + b) (x + 2 ^ a * y) = lsbBits a x ++ lsbBits b y := by
  induction a generalizing x with
  | zero =>
    rw [pow_zero, lt_one_iff] at lt
    simp [lt, lsbBits]
  | succ a ih =>
    have tail : (x + 2 ^ (a + 1) * y) / 2 = x / 2 + 2 ^ a * y := by
      rw [pow_succ', mul_assoc]
      omega
    have head : (x + 2 ^ (a + 1) * y).testBit 0 = x.testBit 0 := by
      rw [testBit_zero, testBit_zero, pow_succ', mul_assoc]
      simp
    rw [succ_add, lsbBits, tail, ih (by rw [pow_succ] at lt; omega), head]
    rfl

theorem lsbBits_split (a b v : Nat) : lsbBits (a + b) v = lsbBits a v ++ lsbBits b (v / 2 ^ a) := by
  induction a generalizing v with
  | zero => simp [lsbBits]
  | succ a ih =>
    rw [succ_add, lsbBits, ih, lsbBits, Nat.div_div_eq_div_mul, ← pow_succ']
    rfl

theorem lsbBits_mod (n v : Nat) : lsbBits n (v % 2 ^ n) = lsbBits n v := by
  have spent := lsbBits_lsbValue (lsbBits n v)
  rwa [lsbBits_length, lsbValue_lsbBits] at spent

/-- The bits of a byte string, least significant bit of each byte first. -/
def lsbByteBits (bytes : List UInt8) : List Bool :=
  bytes.flatMap fun byte => lsbBits 8 byte.toNat

@[simp] theorem lsbByteBits_nil : lsbByteBits [] = [] := rfl

@[simp] theorem lsbByteBits_cons (byte : UInt8) (bytes : List UInt8) :
    lsbByteBits (byte :: bytes) = lsbBits 8 byte.toNat ++ lsbByteBits bytes := by
  simp [lsbByteBits]

@[simp] theorem lsbByteBits_append (xs ys : List UInt8) :
    lsbByteBits (xs ++ ys) = lsbByteBits xs ++ lsbByteBits ys := by
  simp [lsbByteBits]

@[simp] theorem lsbByteBits_length (bs : List UInt8) : (lsbByteBits bs).length = 8 * bs.length := by
  induction bs with
  | nil => rfl
  | cons byte bs ih =>
    rw [lsbByteBits_cons, length_append, lsbBits_length, ih, length_cons]
    omega

/-! ## Codes read through a table -/

/-- Every window of `width` bits that starts with the code of a symbol has the entry of that
symbol; the symbols are numbered from `first` on. -/
def looksUp (entry : Nat → Nat) (pack : Nat → Nat → Nat) (width : Nat) : Nat → List (Nat × Nat) → Bool
  | first, word :: words =>
    word.1 ≤ width && word.2 < 2 ^ word.1 &&
      ((List.range (2 ^ (width - word.1))).all fun k =>
        entry (word.2 + k * 2 ^ word.1) == pack first word.1) &&
      looksUp entry pack width (first + 1) words
  | _, [] => true

/-- `pack` puts a symbol and the length of its code into one entry. -/
structure LookupCode where
  width : Nat
  entry : Nat → Nat
  pack : Nat → Nat → Nat
  words : List (Nat × Nat)
  complete : looksUp entry pack width 0 words = true

theorem looksUp_getD {entry : Nat → Nat} {pack : Nat → Nat → Nat} {width : Nat}
    {words : List (Nat × Nat)} {fst : Nat}
    (complete : looksUp entry pack width fst words = true) {i : Nat} (inside : i < words.length) :
    (words.getD i (0, 0)).1 ≤ width ∧ (words.getD i (0, 0)).2 < 2 ^ (words.getD i (0, 0)).1 ∧
      ∀ k, k < 2 ^ (width - (words.getD i (0, 0)).1) →
      entry ((words.getD i (0, 0)).2 + k * 2 ^ (words.getD i (0, 0)).1) =
          pack (fst + i) (words.getD i (0, 0)).1 := by
  induction words generalizing fst i with
  | nil => cases inside
  | cons _ words ih =>
    simp only [looksUp, Bool.and_eq_true, decide_eq_true_eq, all_eq_true, mem_range,
      beq_iff_eq] at complete
    obtain ⟨⟨⟨len, lt⟩, here⟩, rest⟩ := complete
    cases i with
    | zero => exact ⟨len, lt, here⟩
    | succ i =>
      have next := ih rest (lt_of_succ_lt_succ inside)
      rw [add_assoc, add_comm 1] at next
      exact next

namespace LookupCode

variable (code : LookupCode) {symbol : Nat}

def spell (symbol : Nat) : List Bool :=
  lsbBits (code.words.getD symbol (0, 0)).1 (code.words.getD symbol (0, 0)).2

theorem entry_spell (inside : symbol < code.words.length) (rest : List Bool) :
    code.entry (lsbValue (code.spell symbol ++ rest) % 2 ^ code.width) = code.pack symbol
    (code.spell symbol).length := by
  obtain ⟨len, lt, here⟩ := looksUp_getD code.complete inside
  rw [zero_add] at here
  have win : lsbValue (code.spell symbol ++ rest) % 2 ^ code.width =
      (code.words.getD symbol (0, 0)).2 +
        lsbValue rest % 2 ^ (code.width - (code.words.getD symbol (0, 0)).1) *
        2 ^ (code.words.getD symbol (0, 0)).1 := by
    rw [spell, lsbValue_append, lsbValue_lsbBits_of_lt lt, lsbBits_length]
    conv_lhs => rw [← Nat.add_sub_cancel' len, pow_add, mod_mul, add_mul_mod_self_left,
      mod_eq_of_lt lt, add_mul_div_left _ _ (Nat.two_pow_pos _), div_eq_of_lt lt,
      zero_add, mul_comm]
  rw [win, here _ (mod_lt _ (Nat.two_pow_pos _)), spell, lsbBits_length]

theorem word_small (inside : symbol < code.words.length) :
    (code.words.getD symbol (0, 0)).2 < 2 ^ (code.words.getD symbol (0, 0)).1 :=
  (looksUp_getD code.complete inside).2.1

theorem spell_length (symbol : Nat) :
    (code.spell symbol).length = (code.words.getD symbol (0, 0)).1 := lsbBits_length _ _

theorem spell_length_le (inside : symbol < code.words.length) :
    (code.spell symbol).length ≤ code.width := by
  rw [spell_length]
  exact (looksUp_getD code.complete inside).1

end LookupCode

end KvmServer.Lib
