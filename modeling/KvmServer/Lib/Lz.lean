import KvmServer.Lib.Memory

/-! # Sliding-window tokens

A token stores one fresh cell or repeats cells of the window.  `Describes`: every repetition has
been checked against the window as it stands at that moment.  A description stays valid on every
window with the same cells where it reads. -/

namespace KvmServer.Lib

variable {α : Type}

inductive LzToken (α : Type) where
  | literal (x : α)
  | copy (src len : Nat)
deriving Repr

def LzToken.advance : LzToken α → Nat
  | .literal _ => 1
  | .copy _ len => len

/-- `Describes Allowed mem dst tokens block`: executed on `mem` from `dst` on, `tokens` write
`block`, and `Allowed dst src len` holds of every repetition. -/
inductive Describes (Allowed : Nat → Nat → Nat → Prop) :
    Mem α → Nat → List (LzToken α) → List α → Prop where
  | nil {mem dst} : Describes Allowed mem dst [] []
  | literal {mem dst x tokens block}
      (rest : Describes Allowed (store mem dst x) (dst + 1) tokens block) :
      Describes Allowed mem dst (.literal x :: tokens) (x :: block)
  | copy {mem dst src xs tokens block} (repeats : Repeats mem dst src xs)
      (allowed : Allowed dst src xs.length)
      (rest : Describes Allowed (blit mem dst xs) (dst + xs.length) tokens block) :
      Describes Allowed mem dst (.copy src xs.length :: tokens) (xs ++ block)

namespace Describes

variable {Alw : Nat → Nat → Nat → Prop} {mem mem' : Mem α} {dst : Nat}
  {toks tokens₁ tokens₂ : List (LzToken α)} {block block₁ block₂ : List α}

theorem append (fst : Describes Alw mem dst tokens₁ block₁)
    (second : Describes Alw (blit mem dst block₁) (dst + block₁.length) tokens₂ block₂) :
    Describes Alw mem dst (tokens₁ ++ tokens₂) (block₁ ++ block₂) := by
  induction fst with
  | nil => exact second
  | literal _ ih =>
    refine literal (ih ?_)
    simpa [blit, add_assoc, add_comm 1] using second
  | copy reps always _ ih =>
    rw [List.append_assoc]
    refine copy reps always (ih ?_)
    simpa [blit_append, add_assoc] using second

theorem literals (mem : Mem α) (dst : Nat) (xs : List α) :
    Describes Alw mem dst (xs.map .literal) xs := by
  induction xs generalizing mem dst with
  | nil => exact nil
  | cons x xs ih => exact literal (ih _ _)

section
variable (desc : Describes Alw mem dst toks block)
include desc

theorem advance_eq : (toks.map LzToken.advance).sum = block.length := by
  induction desc with
  | nil => rfl
  | literal _ ih =>
    rw [List.map_cons, List.sum_cons, ih, List.length_cons, add_comm]
    rfl
  | copy _ _ _ ih =>
    rw [List.map_cons, List.sum_cons, ih, List.length_append]
    rfl

theorem congr {bound : Nat} (inside : ∀ dst src len, Alw dst src len → src + len ≤ bound)
    (agree : AgreeBelow bound mem mem') : Describes Alw mem' dst toks block := by
  induction desc generalizing mem' with
  | nil => exact nil
  | literal _ ih => exact literal (ih (agree.store _ _))
  | copy reps always _ ih =>
    exact copy (reps.congr agree (inside _ _ _ always)) always (ih (agree.blit _ _))

theorem congr_behind (past : ∀ dst src len, Alw dst src len → src < dst)
    (agree : AgreeBelow dst mem mem') : Describes Alw mem' dst toks block := by
  induction desc generalizing mem' with
  | nil => exact nil
  | literal _ ih => exact literal (ih (agree.store_next _))
  | copy reps always _ ih =>
    exact copy (reps.congr_behind agree (past _ _ _ always)) always (ih (agree.blit_next _))

end

end Describes

end KvmServer.Lib
