import Mathlib

/-! # Sessions

A session feeds a list of inputs to a machine and collects its outputs.  What one step guarantees
from any state that satisfies the invariant holds for every output of every session. -/

namespace KvmServer.Lib

variable {σ ι ω : Type} {step : σ → ι → σ × ω} {Ok : ι → Prop} {is : List ι}
  {Inv : σ → Prop} {Good : ι → ω → Prop}
  {s : σ} {ε : Type} {s' : σ} {P : σ → Prop}

def outputs (step : σ → ι → σ × ω) : σ → List ι → List ω
  | _, [] => []
  | s, i :: is => (step s i).2 :: outputs step (step s i).1 is

def StepsMeet (step : σ → ι → σ × ω) (Ok : σ → ι → Prop) : σ → List ι → Prop
  | _, [] => True
  | s, i :: is => Ok s i ∧ StepsMeet step Ok (step s i).1 is

theorem stepsMeet_of_forall (s : σ) (inputs : ∀ i ∈ is, Ok i) : StepsMeet step (fun _ => Ok) s is := by
  induction is generalizing s with
  | nil => trivial
  | cons i is ih =>
    exact ⟨inputs i List.mem_cons_self, ih _ fun j mem => inputs j (List.mem_cons_of_mem _ mem)⟩

/-- The session rule: a step lemma gives the run lemma. -/
theorem forall₂_outputs_of_stepsMeet {Ok : σ → ι → Prop}
    (preserved : ∀ s i, Inv s → Ok s i → Inv (step s i).1 ∧ Good i (step s i).2) (init : Inv s)
    (inputs : StepsMeet step Ok s is) : List.Forall₂ Good is (outputs step s is) := by
  induction is generalizing s with
  | nil => exact .nil
  | cons i is ih =>
    obtain ⟨next, good⟩ := preserved s i init inputs.1
    exact .cons good (ih next inputs.2)

theorem forall₂_outputs (preserved : ∀ s i, Inv s → Ok i → Inv (step s i).1 ∧ Good i (step s i).2)
    (init : Inv s) (inputs : ∀ i ∈ is, Ok i) : List.Forall₂ Good is (outputs step s is) :=
  forall₂_outputs_of_stepsMeet preserved init (stepsMeet_of_forall s inputs)

/-- Where the condition of a step is exact, so is that of a session. -/
theorem forall_outputs_iff {Ok : σ → ι → Prop} {Good : ω → Prop}
    (sharp : ∀ s i, Good (step s i).2 ↔ Ok s i) (s : σ)
    (is : List ι) : (∀ out ∈ outputs step s is, Good out) ↔ StepsMeet step Ok s is := by
  induction is generalizing s with
  | nil => exact ⟨fun _ => trivial, fun _ out mem => absurd mem List.not_mem_nil⟩
  | cons i is ih => rw [outputs, List.forall_mem_cons, StepsMeet, sharp, ih]

/-- What one step keeps holds after every session in which no step fails. -/
theorem foldlM_ok_invariant {step : σ → ι → Except ε σ}
    (preserved : ∀ s i s', Inv s → step s i = .ok s' → Inv s')
    (init : Inv s) (res : is.foldlM step s = .ok s') : Inv s' := by
  induction is generalizing s with
  | nil =>
    cases res
    exact init
  | cons i is ih =>
    rw [List.foldlM_cons] at res
    cases fst : step s i with
    | error e =>
      rw [fst] at res
      cases res
    | ok next =>
      rw [fst] at res
      exact ih (preserved s i next init fst) res

/-- A session that may be stopped, next to one that may not: if one step goes through exactly under
a condition, and then does what the other one does, a session goes through exactly if every step
meets the condition. -/
theorem foldlM_ok_iff_stepsMeet {guarded : σ → ι → Except ε σ} {Ok : σ → ι → Prop}
    (sharp : ∀ s i, Inv s → ((∃ s', guarded s i = .ok s') ↔ Ok s i))
    (same : ∀ s i s', Inv s → guarded s i = .ok s' → (step s i).1 = s' ∧ Inv s')
    (init : Inv s) (is : List ι) :
    (∃ s', is.foldlM guarded s = .ok s') ↔ StepsMeet step Ok s is := by
  induction is generalizing s with
  | nil => exact iff_of_true ⟨s, rfl⟩ trivial
  | cons i is ih =>
    rw [StepsMeet, ← sharp s i init]
    simp only [List.foldlM_cons]
    cases fst : guarded s i with
    | error e =>
      apply iff_of_false
      · rintro ⟨s', res⟩
        cases res
      rintro ⟨⟨s', res⟩, -⟩
      cases res
    | ok next =>
      obtain ⟨stepped, kept⟩ := same s i next init fst
      rw [stepped, ← ih kept]
      exact ⟨fun res => ⟨⟨next, rfl⟩, res⟩, fun both => both.2⟩

/-! ## Everything that is come to -/

/-- `P` holds of every state that `step` leads to. -/
def Always (step : σ → σ → Prop) (P : σ → Prop) (s : σ) : Prop :=
    ∀ s', Relation.ReflTransGen step s s' → P s'

variable {step : σ → σ → Prop}

theorem Always.here (always : Always step P s) : P s := always s .refl

theorem Always.next (always : Always step P s) (one : step s s') : Always step P s' :=
  fun last later => always last (.head one later)

theorem Always.intro (here : P s) (next : ∀ s', step s s' → Always step P s') : Always step P s := by
  intro last reached
  cases reached using Relation.ReflTransGen.head_induction_on with
  | refl => exact here
  | head one later _ => exact next _ one last later

end KvmServer.Lib
