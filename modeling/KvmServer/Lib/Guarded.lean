import KvmServer.Lib.Loop
import KvmServer.Lib.Memory

/-! # Guarded memory

A memory of which only the first `size` cells may be touched.  Every access is checked, so a run
that comes to an end has stayed inside; what it computes is then what the unchecked operations
compute. -/

namespace KvmServer.Lib

variable {α : Type}

inductive Fault where
  /-- A cell outside of the memory would be touched. -/
  | outside
  /-- A shift count is negative or exceeds the width. -/
  | shift
  /-- The run does not come to an end. -/
  | endless
deriving DecidableEq

def readAt (size : Nat) (mem : Mem α) (addr : Nat) : Except Fault α :=
  if addr < size then .ok (mem addr) else .error .outside

def writeAt (size : Nat) (mem : Mem α) (addr : Nat) (x : α) : Except Fault (Mem α) :=
  if addr < size then .ok (store mem addr x) else .error .outside

def clearAt [Zero α] (size n : Nat) (mem : Mem α) : Except Fault (Mem α) :=
  if n ≤ size then .ok (zeroMemory n mem) else .error .outside

/-- `do { *dst++ = *src++; } while (--n)`, and nothing for `n = 0`. -/
def copyAt (size : Nat) (mem : Mem α) (dst src : Nat) : Nat → Except Fault (Mem α)
  | 0 => .ok mem
  | n + 1 => do
    let x ← readAt size mem src
    let mem ← writeAt size mem dst x
    copyAt size mem (dst + 1) (src + 1) n

def shiftLeftAt (x : Nat) (nbits : Int) : Except Fault Nat :=
  if 0 ≤ nbits ∧ nbits < 32 then .ok (x <<< nbits.toNat % 2 ^ 32) else .error .shift

section
variable {size addr dst src n : Nat} {mem : Mem α}

theorem readAt_ok (inside : addr < size) : readAt size mem addr = .ok (mem addr) := if_pos inside

theorem readAt_outside (outside : size ≤ addr) : readAt size mem addr = .error .outside :=
  if_neg (Nat.not_lt_of_le outside)

theorem writeAt_ok (inside : addr < size) (x : α) :
    writeAt size mem addr x = .ok (store mem addr x) := if_pos inside

theorem clearAt_ok [Zero α] (inside : n ≤ size) : clearAt size n mem = .ok (zeroMemory n mem) :=
    if_pos inside

theorem copyAt_ok (source : src + n ≤ size) (destination : dst + n ≤ size) :
    copyAt size mem dst src n = .ok (lzCopy mem dst src n) := by
  induction n generalizing mem dst src with
  | zero => rfl
  | succ n ih =>
    rw [copyAt, readAt_ok (by omega), ok_bind, writeAt_ok (by omega), ok_bind]
    exact ih (by omega) (by omega)

theorem copyAt_outside (pos : 0 < n) (source : size < src + n) (destination : dst + n ≤ size) :
    copyAt size mem dst src n = .error .outside := by
  induction n generalizing mem dst src with
  | zero => exact absurd pos (lt_irrefl 0)
  | succ n ih =>
    by_cases inside : src < size
    · rw [copyAt, readAt_ok inside, ok_bind, writeAt_ok (by omega), ok_bind]
      exact ih (by omega) (by omega) (by omega)
    rw [copyAt, readAt_outside (not_lt.mp inside)]
    rfl

theorem shiftLeftAt_ok {x : Nat} {nbits : Int} (pos : 0 ≤ nbits) (short : nbits < 32) :
    shiftLeftAt x nbits = .ok (x <<< nbits.toNat % 2 ^ 32) := if_pos ⟨pos, short⟩

end

end KvmServer.Lib
