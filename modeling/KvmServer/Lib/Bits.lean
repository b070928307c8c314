import KvmServer.Lib.Bytes

/-! # Bit strings and machine words

A bit string is a `List Bool`, first transmitted bit first; past its end there are zeros.
`msbBits`/`msbPeek` take the most significant bit of a word first, `lsbBits`/`lsbPeek` the least
significant one. -/

namespace KvmServer.Lib
open Nat

/-! ## Word arithmetic -/

def sub32 (a b : Nat) : Nat := (a + 2 ^ 32 - b) % 2 ^ 32

variable {a b k x w n : Nat} {α : Type} (l : List Bool) (bytes : List UInt8)

theorem sub32_of_le (le : b ≤ a) (lt : a < 2 ^ 32) : sub32 a b = a - b := by
  unfold sub32
  omega

theorem mul_two_pow_or (lt : b < 2 ^ k) : a * 2 ^ k ||| b = a * 2 ^ k + b := by
  rw [mul_comm, two_pow_add_eq_or_of_lt lt]

theorem and_high_mask (lt : x < 2 ^ w) (le : k ≤ w) : x &&& (2 ^ w - 2 ^ k) = x / 2 ^ k * 2 ^ k := by
  have mask : 2 ^ w - 2 ^ k = (2 ^ (w - k) - 1) <<< k := by
    rw [shiftLeft_eq, Nat.sub_mul, ← pow_add, one_mul, Nat.sub_add_cancel le]
  rw [mask, ← shiftLeft_eq]
  apply eq_of_testBit_eq
  intro i
  rw [testBit_and, testBit_shiftLeft, testBit_shiftLeft, testBit_two_pow_sub_one]
  by_cases hi : k ≤ i
  · rw [testBit_div_two_pow, Nat.sub_add_cancel hi]
    by_cases inside : i < w
    · simp [hi]
      omega
    have high : x.testBit i = false :=
      testBit_lt_two_pow (lt_of_lt_of_le lt (Nat.pow_le_pow_right (by omega) (by omega)))
    simp [high]
  · simp [hi]

theorem shiftLeft_mod (le : n ≤ w) (x : Nat) : (x <<< n) % 2 ^ w = x % 2 ^ (w - n) * 2 ^ n := by
  rw [shiftLeft_eq, ← mul_mod_mul_right, ← pow_add, Nat.sub_add_cancel le]

theorem mul_two_pow_div_of_le (le : b ≤ a) (x : Nat) : x * 2 ^ a / 2 ^ b = x * 2 ^ (a - b) := by
  rw [← Nat.sub_add_cancel le, pow_add, ← mul_assoc, Nat.mul_div_cancel _ (Nat.two_pow_pos b),
    Nat.add_sub_cancel]

theorem mul_two_pow_div_of_ge (le : a ≤ b) (x : Nat) : x * 2 ^ a / 2 ^ b = x / 2 ^ (b - a) := by
  rw [← Nat.sub_add_cancel le, pow_add, Nat.mul_div_mul_right _ _ (Nat.two_pow_pos a),
    Nat.add_sub_cancel]

/-! ## Most significant bit first -/

/-- The low `n` bits of `v`, most significant first. -/
def msbBits : Nat → Nat → List Bool
  | 0, _ => []
  | n + 1, v => v.testBit n :: msbBits n v

@[simp] theorem msbBits_length (n v : Nat) : (msbBits n v).length = n := by
  induction n with
  | zero => rfl
  | succ n ih => simp [msbBits, ih]

/-- The number spelled by the first `n` bits of `l`, most significant first. -/
def msbPeek : List Bool → Nat → Nat
  | _, 0 => 0
  | l, n + 1 => (l.headD false).toNat * 2 ^ n + msbPeek l.tail n

@[simp] theorem msbPeek_zero : msbPeek l 0 = 0 := rfl

@[simp] theorem msbPeek_nil (n : Nat) : msbPeek [] n = 0 := by
  induction n with
  | zero => rfl
  | succ n ih => simp [msbPeek, ih]

theorem msbPeek_cons (b : Bool) (l : List Bool) (n : Nat) :
    msbPeek (b :: l) (n + 1) = b.toNat * 2 ^ n + msbPeek l n := rfl

theorem msbPeek_lt (n : Nat) : msbPeek l n < 2 ^ n := by
  induction n generalizing l with
  | zero => simp
  | succ n ih =>
    have rest := ih l.tail
    have head : (l.headD false).toNat ≤ 1 := Bool.toNat_le _
    have : (l.headD false).toNat * 2 ^ n ≤ 1 * 2 ^ n := Nat.mul_le_mul_right _ head
    rw [msbPeek, pow_succ]
    omega

theorem msbPeek_add (a b : Nat) : msbPeek l (a + b) = msbPeek l a * 2 ^ b + msbPeek (l.drop a) b := by
  induction a generalizing l with
  | zero => simp
  | succ a ih =>
    rw [succ_add, msbPeek, msbPeek, ih, List.drop_tail]
    ring

theorem msbPeek_div (a b : Nat) : msbPeek l (a + b) / 2 ^ b = msbPeek l a := by
  rw [msbPeek_add, mul_comm, mul_add_div (Nat.two_pow_pos b), div_eq_of_lt (msbPeek_lt _ b), add_zero]

theorem msbPeek_mod (a b : Nat) : msbPeek l (a + b) % 2 ^ b = msbPeek (l.drop a) b := by
  rw [msbPeek_add, add_comm, add_mul_mod_self_right, mod_eq_of_lt (msbPeek_lt _ b)]

theorem msbPeek_field (a b c : Nat) : msbPeek l (a + b + c) / 2 ^ c % 2 ^ b = msbPeek (l.drop a) b := by
  rw [msbPeek_div, msbPeek_mod]

theorem msbPeek_append_of_le {l : List Bool} (le : n ≤ l.length) (r : List Bool) :
    msbPeek (l ++ r) n = msbPeek l n := by
  induction n generalizing l with
  | zero => rfl
  | succ n ih =>
    cases l with
    | nil => simp at le
    | cons b l => rw [List.cons_append, msbPeek_cons, msbPeek_cons, ih (by simpa using le)]

theorem msbPeek_msbBits (n v : Nat) : msbPeek (msbBits n v) n = v % 2 ^ n := by
  induction n with
  | zero => simp [mod_one]
  | succ n ih =>
    rw [msbBits, msbPeek_cons, ih, toNat_testBit, mod_pow_succ]
    ring

theorem msbPeek_msbBits_append {v : Nat} (lt : v < 2 ^ n) (r : List Bool) :
    msbPeek (msbBits n v ++ r) n = v := by
  rw [msbPeek_append_of_le (by simp), msbPeek_msbBits, mod_eq_of_lt lt]

theorem msbBits_mod {m : Nat} (le : n ≤ m) (v : Nat) : msbBits n (v % 2 ^ m) = msbBits n v := by
  induction n with
  | zero => rfl
  | succ n ih =>
    rw [msbBits, msbBits, ih (by omega), testBit_mod_two_pow]
    simp
    omega

theorem msbBits_msbPeek (n : Nat) : msbBits n (msbPeek l n) = l.takeD n false := by
  induction n generalizing l with
  | zero => rfl
  | succ n ih =>
    have low := msbPeek_lt l.tail n
    have head : (msbPeek l (n + 1)).testBit n = l.headD false := by
      rw [msbPeek, testBit_eq_decide_div_mod_eq, mul_comm, mul_add_div (Nat.two_pow_pos n),
        div_eq_of_lt low]
      cases l.headD false <;> rfl
    have rest : msbBits n (msbPeek l (n + 1)) = msbBits n (msbPeek l.tail n) := by
      rw [← msbBits_mod le_rfl, msbPeek, add_comm, add_mul_mod_self_right, mod_eq_of_lt low]
    rw [msbBits, head, rest, ih]
    cases l <;> rfl

theorem msbBits_add {y : Nat} (lt : y < 2 ^ b) :
    msbBits (a + b) (x * 2 ^ b + y) = msbBits a x ++ msbBits b y := by
  induction a with
  | zero =>
    rw [zero_add, ← msbBits_mod le_rfl, add_comm, add_mul_mod_self_right, mod_eq_of_lt lt]
    rfl
  | succ a ih =>
    rw [succ_add, msbBits, ih, msbBits, mul_comm, testBit_two_pow_mul_add x lt]
    simp

/-! ## Byte strings -/

/-- The bits of a byte string, most significant bit of each byte first. -/
def msbByteBits (bytes : List UInt8) : List Bool :=
  bytes.flatMap fun byte => msbBits 8 byte.toNat

@[simp] theorem msbByteBits_nil : msbByteBits [] = [] := rfl

@[simp] theorem msbByteBits_cons (byte : UInt8) (bytes : List UInt8) :
    msbByteBits (byte :: bytes) = msbBits 8 byte.toNat ++ msbByteBits bytes := by
  simp [msbByteBits]

@[simp] theorem msbByteBits_length : (msbByteBits bytes).length = 8 * bytes.length := by
  induction bytes with
  | nil => rfl
  | cons byte bytes ih =>
    simp [ih]
    omega

/-- The first `n` bytes of a bit string, the last ones padded with zero bits. -/
def msbBytes : Nat → List Bool → List UInt8
  | 0, _ => []
  | n + 1, l => UInt8.ofNat (msbPeek l 8) :: msbBytes n (l.drop 8)

@[simp] theorem msbBytes_length (n : Nat) (l : List Bool) : (msbBytes n l).length = n := by
  induction n generalizing l with
  | zero => rfl
  | succ n ih => simp [msbBytes, ih]

theorem takeD_add (l : List α) (a b : Nat) (d : α) :
    l.takeD (a + b) d = l.takeD a d ++ (l.drop a).takeD b d := by
  induction a generalizing l with
  | zero => simp
  | succ a ih =>
    rw [succ_add]
    cases l with
    | nil => simp
    | cons x l => simpa using ih l

theorem takeD_eq_append {l : List α} (le : l.length ≤ n) (d : α) :
    l.takeD n d = l ++ List.replicate (n - l.length) d := by
  induction l generalizing n with
  | nil => simp
  | cons x l ih =>
    obtain ⟨n, rfl⟩ := exists_eq_succ_of_ne_zero (Nat.ne_of_gt (lt_of_lt_of_le (by simp) le))
    simp [ih (le_of_succ_le_succ le)]

theorem msbByteBits_msbBytes (n : Nat) (l : List Bool) :
    msbByteBits (msbBytes n l) = l.takeD (8 * n) false := by
  induction n generalizing l with
  | zero => simp [msbBytes]
  | succ n ih =>
    have lt : msbPeek l 8 < 256 := msbPeek_lt l 8
    rw [msbBytes, msbByteBits_cons, ih, mul_succ, add_comm, takeD_add,
      UInt8.toNat_ofNat', mod_eq_of_lt lt, msbBits_msbPeek]

theorem msbPeek_msbByteBits (i : Nat) :
    msbPeek ((msbByteBits bytes).drop (8 * i)) 8 = (bytes.getD i 0).toNat := by
  induction bytes generalizing i with
  | nil => simp
  | cons byte bytes ih =>
    have lt : byte.toNat < 2 ^ 8 := byte.toNat_lt
    cases i with
    | zero => simpa using msbPeek_msbBits_append lt _
    | succ i =>
      rw [msbByteBits_cons, mul_succ, add_comm, ← List.drop_drop,
        List.drop_left' (msbBits_length _ _), ih]
      rfl

end KvmServer.Lib
