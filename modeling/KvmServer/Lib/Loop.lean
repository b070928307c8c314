import Mathlib

/-! # Counting loops

`forRange n step` runs `step` for 0, 1, ... up to `n - 1` and stops at the first failure.  The loop
rule is one of total correctness: if every round goes through and takes the invariant to the next
number, so does the loop. -/

namespace KvmServer.Lib

theorem ok_bind {ε α β : Type} (x : α) (f : α → Except ε β) : (Except.ok x >>= f) = f x := rfl

theorem bind_ok_iff {ε α β : Type} {x : Except ε α} {f : α → Except ε β} {b : β} :
    (x >>= f) = .ok b ↔ ∃ a, x = .ok a ∧ f a = .ok b := by
  cases x with
  | error e =>
    constructor
    · intro h
      cases h
    rintro ⟨a, h, -⟩
    cases h
  | ok a =>
    constructor
    · intro h
      exact ⟨a, rfl, h⟩
    rintro ⟨_, h, next⟩
    cases h
    exact next

variable {ε σ : Type}

def forRange (step : Nat → σ → Except ε σ) : Nat → σ → Except ε σ
  | 0, s => .ok s
  | n + 1, s => do
    let s ← forRange step n s
    step n s

theorem forRange_ok {step : Nat → σ → Except ε σ} {Inv : Nat → σ → Prop} {n : Nat}
    (round : ∀ i s, i < n → Inv i s → ∃ s', step i s = .ok s' ∧ Inv (i + 1) s')
    {s : σ} (init : Inv 0 s) :
    ∃ s', forRange step n s = .ok s' ∧ Inv n s' := by
  induction n with
  | zero => exact ⟨s, rfl, init⟩
  | succ n ih =>
    obtain ⟨mid, run, kept⟩ := ih fun i s below => round i s (Nat.lt_succ_of_lt below)
    obtain ⟨last, lastRnd, done⟩ := round n mid (Nat.lt_succ_self n) kept
    refine ⟨last, ?_, done⟩
    rw [forRange, run]
    exact lastRnd

end KvmServer.Lib
