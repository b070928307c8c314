import KvmServer.Lib.Bytes
import KvmServer.Lib.Loop

/-! # Byte streams (`winpr/stream.h`)

A stream that is written to is the bytes before its position, together with the capacity of its
buffer.  A stream that is read from is the list of its remaining bytes. -/

namespace KvmServer.Winpr
open Lib

/-- Why a call does not return `TRUE`. -/
inductive Stop where
  /-- A `WINPR_ASSERT` or a checked cast fails. -/
  | assertion
  /-- The call returns `FALSE`. -/
  | refused
  /-- The call never returns. -/
  | loops
deriving DecidableEq, Repr

def winprAssert (condition : Prop) [Decidable condition] : Except Stop Unit :=
  if condition then .ok () else .error .assertion

/-- `WINPR_ASSERTING_INT_CAST` to an unsigned type of `bits` bits. -/
def assertingCast (bits x : Nat) : Except Stop Nat := if x < 2 ^ bits then .ok x else .error .assertion

structure WStream where
  written : List UInt8
  capacity : Nat
  inside : written.length ≤ capacity

def streamGetRemainingCapacity (s : WStream) : Nat := s.capacity - s.written.length

variable {β : Type} {b : β} {α : Type}

theorem bind_eq_ok {x : Except Stop α} {f : α → Except Stop β} :
    (x >>= f) = .ok b ↔ ∃ a, x = .ok a ∧ f a = .ok b :=
  bind_ok_iff

theorem winprAssert_bind_ok_iff {condition : Prop} [Decidable condition] {f : Unit → Except Stop β} :
    (winprAssert condition >>= f) = .ok b ↔ condition ∧ f () = .ok b := by
  rw [winprAssert]
  split
  · next h => rw [ok_bind, and_iff_right h]
  · next failed =>
    refine iff_of_false ?_ fun both => failed both.1
    intro res
    cases res

variable {x size n : Nat} {s s' : WStream}

theorem assertingCast_bind_ok_iff {bits : Nat} {f : Nat → Except Stop β} :
    (assertingCast bits x >>= f) = .ok b ↔ x < 2 ^ bits ∧ f x = .ok b := by
  rw [assertingCast]
  split
  · next fits => rw [ok_bind, and_iff_right fits]
  · next big =>
    refine iff_of_false ?_ fun both => big both.1
    intro res
    cases res

theorem exists_ok {x : Except Stop α} (ok : x.isOk = true) : ∃ a, x = .ok a := by
  cases x with
  | error _ => cases ok
  | ok a => exact ⟨a, rfl⟩

/-! ## Writing -/

/-- `Stream_Write_UINT8`, `Stream_Write_UINT16_BE` and `Stream_Write_UINT32_BE` for `n` of 1, 2
and 4. -/
def streamWriteBE (n x : Nat) (s : WStream) : Except Stop WStream :=
  if fits : x < 2 ^ (8 * n) ∧ n ≤ streamGetRemainingCapacity s then
    .ok
      { written := s.written ++ beBytes n x
        capacity := s.capacity
        inside := by
          have := s.inside
          have := fits.2
          rw [List.length_append, beBytes_length]
          unfold streamGetRemainingCapacity at this
          omega }
  else .error .assertion

/-- `do new_capacity *= 2; while (new_capacity < size)`; an empty buffer never grows. -/
def doubleCapacity (size : Nat) : Nat → Nat → Except Stop Nat
  | 0, _ => .error .loops
  | fuel + 1, capacity =>
    if 2 * capacity < size then doubleCapacity size fuel (2 * capacity) else .ok (2 * capacity)

theorem doubleCapacity_ge {fuel cap capacity' : Nat}
    (res : doubleCapacity size fuel cap = .ok capacity') : size ≤ capacity' := by
  induction fuel generalizing cap with
  | zero => cases res
  | succ fuel ih =>
    rw [doubleCapacity] at res
    split at res
    · exact ih res
    · cases res
      omega

theorem doubleCapacity_returns {fuel cap : Nat} (pos : 0 < cap) (some : 0 < fuel)
    (room : size < cap + fuel) : ∃ capacity', doubleCapacity size fuel cap = .ok capacity' := by
  induction fuel generalizing cap with
  | zero => exact absurd some (lt_irrefl 0)
  | succ fuel ih =>
    rw [doubleCapacity]
    split
    · exact ih (by omega) (by omega) (by omega)
    · exact ⟨_, rfl⟩

/-- `Stream_EnsureRemainingCapacity`, when memory is available. -/
def streamEnsureRemainingCapacity (s : WStream) (size : Nat) : Except Stop WStream :=
  if s.written.length + size > s.capacity then
    match grown : doubleCapacity (s.capacity + size) (s.capacity + size) s.capacity with
    | .error stop => .error stop
    | .ok capacity =>
      .ok ⟨s.written, capacity,
        Nat.le_trans s.inside (Nat.le_trans (Nat.le_add_right _ size) (doubleCapacity_ge grown))⟩
  else .ok s

def streamCheckCapacity (s : WStream) (size : Nat) : Except Stop Unit :=
  if size ≤ streamGetRemainingCapacity s then .ok () else .error .refused

def Wrote (s s' : WStream) (bytes : List UInt8) : Prop := s'.written = s.written ++ bytes

theorem Wrote.refl (s : WStream) : Wrote s s [] := (List.append_nil _).symm

theorem Wrote.trans {s₁ s₂ s₃ : WStream} {bs₁ bs₂ : List UInt8} (fst : Wrote s₁ s₂ bs₁)
    (second : Wrote s₂ s₃ bs₂) : Wrote s₁ s₃ (bs₁ ++ bs₂) := by
  rw [Wrote, second, fst, List.append_assoc]

theorem streamWriteBE_ok (res : streamWriteBE n x s = .ok s') :
    x < 2 ^ (8 * n) ∧ Wrote s s' (beBytes n x) := by
  unfold streamWriteBE at res
  split at res
  · rename_i fits
    cases res
    exact ⟨fits.1, rfl⟩
  · cases res

theorem streamWriteBE_returns {n x : Nat} (lt : x < 2 ^ (8 * n))
    (fits : n ≤ streamGetRemainingCapacity s) :
    ∃ s', streamWriteBE n x s = .ok s' ∧ s'.capacity = s.capacity := by
  rw [streamWriteBE, dif_pos ⟨lt, fits⟩]
  exact ⟨_, rfl, rfl⟩

theorem ensureRemaining_ok (res : streamEnsureRemainingCapacity s size = .ok s') :
    Wrote s s' [] ∧ s.written.length + size ≤ s'.capacity := by
  unfold streamEnsureRemainingCapacity at res
  split at res
  · split at res
    · cases res
    rename_i grown
    have room := doubleCapacity_ge grown
    have inside := s.inside
    cases res
    refine ⟨.refl s, ?_⟩
    dsimp only
    omega
  · cases res
    exact ⟨.refl s, by omega⟩

theorem ensureRemaining_returns (s : WStream) (pos : 0 < s.capacity) (size : Nat) :
    ∃ s', streamEnsureRemainingCapacity s size = .ok s' := by
  obtain ⟨_, grown⟩ :=
    @doubleCapacity_returns (s.capacity + size) (s.capacity + size) s.capacity pos (by omega) (by omega)
  unfold streamEnsureRemainingCapacity
  split
  · split
    · rename_i fail
      rw [grown] at fail
      cases fail
    · exact ⟨_, rfl⟩
  · exact ⟨s, rfl⟩

/-! ## Reading -/

/-- `Stream_CheckAndLogRequiredLength` followed by `Stream_Read_UINT8`, `Stream_Read_UINT16_BE` or
`Stream_Read_UINT32_BE` for `n` of 1, 2 and 4. -/
def streamReadBE (n : Nat) (bytes : List UInt8) : Option (Nat × List UInt8) :=
  if n ≤ bytes.length then some (beValue (bytes.take n), bytes.drop n) else none

/-- The same for `Stream_Read_UINT16` and `Stream_Read_UINT32`, which are little-endian. -/
def streamReadLE (n : Nat) (bytes : List UInt8) : Option (Nat × List UInt8) :=
  if n ≤ bytes.length then some (leValue (bytes.take n), bytes.drop n) else none

theorem streamReadLE_rest {value : Nat} {bs rest : List UInt8}
    (read : streamReadLE n bs = some (value, rest)) : rest.length + n = bs.length := by
  unfold streamReadLE at read
  split at read
  next room =>
    cases read
    rw [List.length_drop]
    exact Nat.sub_add_cancel room
  next => cases read

theorem streamReadBE_append (n : Nat) {bs : List UInt8} (len : bs.length = n)
    (rest : List UInt8) : streamReadBE n (bs ++ rest) = some (beValue bs, rest) := by
  rw [streamReadBE, if_pos (by rw [List.length_append]; omega), List.take_left' len, List.drop_left' len]

theorem streamReadBE_cons (byte : UInt8) (rest : List UInt8) :
    streamReadBE 1 (byte :: rest) = some (byte.toNat, rest) := by
  have one := @streamReadBE_append 1 [byte] rfl rest
  rwa [show beValue [byte] = byte.toNat from add_zero _] at one

theorem streamReadBE_beBytes (n x : Nat) (rest : List UInt8) :
    streamReadBE n (beBytes n x ++ rest) = some (x % 2 ^ (8 * n), rest) := by
  rw [streamReadBE_append n (beBytes_length n x), beValue_beBytes]

end KvmServer.Winpr
