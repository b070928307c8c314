import Mathlib

/-! # Memory and sliding-window copies

A memory is a total map from addresses to cells.  `lzCopy` is the cell-by-cell copy of a
sliding-window decoder: it reads through its own writes. -/

namespace KvmServer.Lib
open Nat
variable {α : Type}

structure Mem (α : Type) where
  read : Nat → α

instance : CoeFun (Mem α) fun _ => Nat → α := ⟨Mem.read⟩

variable {m₁ m₂ : Mem α}

@[ext] theorem Mem.ext (same : ∀ i, m₁ i = m₂ i) : m₁ = m₂ := by
  exact congrArg Mem.mk (funext same)

def store (mem : Mem α) (addr : Nat) (x : α) : Mem α :=
  ⟨fun i => if i = addr then x else mem i⟩

@[simp] theorem store_same (mem : Mem α) (addr : Nat) (x : α) : store mem addr x addr = x := by
  simp [store]

variable {i n src dst bound : Nat} {mem : Mem α} {xs : List α}

theorem store_of_ne (mem : Mem α) {addr : Nat} (x : α) (ne : i ≠ addr) : store mem addr x i = mem i := by
  simp [store, ne]

def listMem (padding : α) (xs : List α) : Mem α := ⟨fun i => xs.getD i padding⟩

def zeroMemory [Zero α] (n : Nat) (mem : Mem α) : Mem α := ⟨fun i => if i < n then 0 else mem i⟩

theorem zeroMemory_of_lt [Zero α] (lo : i < n) (mem : Mem α) : zeroMemory n mem i = 0 :=
  if_pos lo

theorem zeroMemory_of_le [Zero α] (hi : n ≤ i) (mem : Mem α) : zeroMemory n mem i = mem i :=
  if_neg (Nat.not_lt_of_le hi)

def blit (mem : Mem α) (addr : Nat) : List α → Mem α
  | [] => mem
  | x :: xs => blit (store mem addr x) (addr + 1) xs

def block (mem : Mem α) (addr : Nat) : Nat → List α
  | 0 => []
  | n + 1 => mem addr :: block mem (addr + 1) n

@[simp] theorem block_length (mem : Mem α) (addr n : Nat) : (block mem addr n).length = n := by
  induction n generalizing addr with
  | zero => rfl
  | succ n ih => simp [block, ih]

theorem blit_append (mem : Mem α) (addr : Nat) (xs ys : List α) :
    blit mem addr (xs ++ ys) = blit (blit mem addr xs) (addr + xs.length) ys := by
  induction xs generalizing mem addr with
  | nil => rfl
  | cons x xs ih =>
    rw [List.cons_append, blit, ih, blit, List.length_cons, add_assoc addr 1, add_comm 1]

theorem blit_of_outside (mem : Mem α) (addr : Nat) (xs : List α)
    (outside : i < addr ∨ addr + xs.length ≤ i) : blit mem addr xs i = mem i := by
  induction xs generalizing mem addr with
  | nil => rfl
  | cons x xs ih =>
    rw [List.length_cons] at outside
    rw [blit, ih _ _ (by omega), store_of_ne _ _ (by omega)]

theorem block_blit (mem : Mem α) (addr : Nat) (xs : List α) :
    block (blit mem addr xs) addr xs.length = xs := by
  induction xs generalizing mem addr with
  | nil => rfl
  | cons x xs ih =>
    rw [List.length_cons, block, blit, ih, blit_of_outside _ _ _ (Or.inl (lt_succ_self addr)),
      store_same]

theorem block_add (mem : Mem α) (addr m n : Nat) :
    block mem addr (m + n) = block mem addr m ++ block mem (addr + m) n := by
  induction m generalizing addr with
  | zero => rw [zero_add]; rfl
  | succ m ih =>
    rw [succ_add, block, block, ih, add_right_comm]
    rfl

theorem block_ext {a b : Nat} (same : ∀ k, k < n → m₁ (a + k) = m₂ (b + k)) :
    block m₁ a n = block m₂ b n := by
  induction n generalizing a b with
  | zero => rfl
  | succ n ih =>
    have head : m₁ a = m₂ b := same 0 (succ_pos n)
    rw [block, block, head, ih]
    · intro k lo
      have next := same (k + 1) (succ_lt_succ lo)
      rwa [add_comm k, ← add_assoc, ← add_assoc] at next

theorem store_self (mem : Mem α) (addr : Nat) : store mem addr (mem addr) = mem := by
  apply Mem.ext
  intro i
  by_cases here : i = addr
  · rw [here, store_same]
  · rw [store_of_ne _ _ here]

theorem blit_block (mem : Mem α) (addr n : Nat) : blit mem addr (block mem addr n) = mem := by
  induction n generalizing addr with
  | zero => rfl
  | succ n ih => rw [block, blit, store_self, ih]

def lzCopy (mem : Mem α) (dst src : Nat) : Nat → Mem α
  | 0 => mem
  | n + 1 => lzCopy (store mem dst (mem src)) (dst + 1) (src + 1) n

theorem lzCopy_add (mem : Mem α) (dst src m n : Nat) :
    lzCopy mem dst src (m + n) = lzCopy (lzCopy mem dst src m) (dst + m) (src + m) n := by
  induction m generalizing mem dst src with
  | zero => rw [zero_add]; rfl
  | succ m ih =>
    rw [succ_add, lzCopy, lzCopy, ih, add_right_comm dst, add_right_comm src]
    rfl

def lzCopyWrapped (window : Nat) (mem : Mem α) (dst src : Nat) : Nat → Mem α
  | 0 => mem
  | n + 1 => lzCopyWrapped window (store mem dst (mem (src % window))) (dst + 1) (src + 1) n

theorem lzCopyWrapped_eq {win : Nat} (inside : src + n ≤ win) (mem : Mem α) (dst : Nat) :
    lzCopyWrapped win mem dst src n = lzCopy mem dst src n := by
  induction n generalizing mem dst src with
  | zero => rfl
  | succ n ih =>
    rw [lzCopyWrapped, lzCopy, mod_eq_of_lt (by omega), ih (by omega)]

/-- Each cell of `xs` equals the cell the copy reads at that moment, when all earlier cells are in
place. -/
def Repeats (mem : Mem α) (dst src : Nat) : List α → Prop
  | [] => True
  | x :: xs => mem src = x ∧ Repeats (store mem dst x) (dst + 1) (src + 1) xs

theorem lzCopy_of_repeats (reps : Repeats mem dst src xs) :
    lzCopy mem dst src xs.length = blit mem dst xs := by
  induction xs generalizing mem dst src with
  | nil => rfl
  | cons x xs ih =>
    obtain ⟨rfl, rest⟩ := reps
    rw [List.length_cons, lzCopy, blit, ih rest]

theorem repeats_block (same : ∀ k, k < n → mem (src + k) = mem (dst + k)) :
    Repeats mem dst src (block mem dst n) := by
  induction n generalizing dst src with
  | zero => trivial
  | succ n ih =>
    refine ⟨same 0 (succ_pos n), ?_⟩
    rw [store_self]
    apply ih
    intro k lo
    have next := same (k + 1) (succ_lt_succ lo)
    rwa [add_comm k, ← add_assoc, ← add_assoc] at next

theorem repeats_source (apart : dst ≤ src ∨ src + n ≤ dst) : Repeats mem dst src (block mem src n) := by
  induction n generalizing mem dst src with
  | zero => trivial
  | succ n ih =>
    have rest : block mem (src + 1) n = block (store mem dst (mem src)) (src + 1) n := by
      apply block_ext
      intro k _
      rw [store_of_ne _ _ (by omega)]
    refine ⟨rfl, ?_⟩
    rw [rest]
    exact ih (by omega)

theorem blit_block_eq_lzCopy (mem : Mem α) (apart : dst ≤ src ∨ src + n ≤ dst) :
    blit mem dst (block mem src n) = lzCopy mem dst src n := by
  rw [← lzCopy_of_repeats (repeats_source apart), block_length]

def AgreeBelow (bound : Nat) (m₁ m₂ : Mem α) : Prop := ∀ i, i < bound → m₁ i = m₂ i

theorem AgreeBelow.store (agree : AgreeBelow bound m₁ m₂)
    (addr : Nat) (x : α) : AgreeBelow bound (store m₁ addr x) (store m₂ addr x) := by
  intro i lo
  by_cases here : i = addr
  · rw [here, store_same, store_same]
  rw [store_of_ne _ _ here, store_of_ne _ _ here]
  exact agree i lo

theorem AgreeBelow.blit (agree : AgreeBelow bound m₁ m₂)
    (addr : Nat) (xs : List α) : AgreeBelow bound (blit m₁ addr xs) (blit m₂ addr xs) := by
  induction xs generalizing m₁ m₂ addr with
  | nil => exact agree
  | cons x xs ih => exact ih (agree.store addr x) (addr + 1)

theorem Repeats.congr (agree : AgreeBelow bound m₁ m₂) (inside : src + xs.length ≤ bound)
    (reps : Repeats m₁ dst src xs) : Repeats m₂ dst src xs := by
  induction xs generalizing m₁ m₂ dst src with
  | nil => trivial
  | cons x xs ih =>
    rw [List.length_cons] at inside
    refine ⟨?_, ih (agree.store dst x) (by omega) reps.2⟩
    rw [← agree src (by omega)]
    exact reps.1

theorem AgreeBelow.store_next (agree : AgreeBelow bound m₁ m₂) (x : α) :
    AgreeBelow (bound + 1) (Lib.store m₁ bound x) (Lib.store m₂ bound x) := by
  intro i _
  by_cases here : i = bound
  · rw [here, store_same, store_same]
  rw [store_of_ne _ _ here, store_of_ne _ _ here]
  exact agree i (by omega)

theorem AgreeBelow.blit_next (agree : AgreeBelow bound m₁ m₂)
    (xs : List α) : AgreeBelow (bound + xs.length) (Lib.blit m₁ bound xs) (Lib.blit m₂ bound xs) := by
  induction xs generalizing m₁ m₂ bound with
  | nil => exact agree
  | cons x xs ih =>
    rw [List.length_cons, ← add_assoc, add_right_comm]
    exact ih (agree.store_next x)

theorem Repeats.congr_behind (agree : AgreeBelow dst m₁ m₂) (past : src < dst)
    (reps : Repeats m₁ dst src xs) : Repeats m₂ dst src xs := by
  induction xs generalizing m₁ m₂ dst src with
  | nil => trivial
  | cons x xs ih =>
    refine ⟨?_, ih (agree.store_next x) (by omega) reps.2⟩
    rw [← agree src past]
    exact reps.1

end KvmServer.Lib
