import KvmServer.Lib.Session

/-! # Refinement

A machine whose calls may go wrong refines a total one when a relation between their states is kept by
every call, with equal results.  What one call guarantees holds for every list of calls. -/

namespace KvmServer.Lib

variable {σ τ ι ω : Type} {step : σ → ι → Option (σ × ω)} {Ok : σ → ι → Prop}

def run (step : σ → ι → Option (σ × ω)) : σ → List ι → Option (σ × List ω)
  | s, [] => some (s, [])
  | s, i :: is => (step s i).bind fun next => (run step next.1 is).map fun rest =>
      (rest.1, next.2 :: rest.2)

def CallsMeet (step : σ → ι → Option (σ × ω)) (Ok : σ → ι → Prop) : σ → List ι → Prop
  | _, [] => True
  | s, i :: is => Ok s i ∧ ∀ next ∈ step s i, CallsMeet step Ok next.1 is

instance CallsMeet.decidable (step : σ → ι → Option (σ × ω)) (Ok : σ → ι → Prop)
    [∀ s i, Decidable (Ok s i)] :
    ∀ (s : σ) (is : List ι), Decidable (CallsMeet step Ok s is)
  | _, [] => .isTrue trivial
  | s, i :: is =>
    haveI (next : σ × ω) := CallsMeet.decidable step Ok next.1 is
    inferInstanceAs (Decidable (Ok s i ∧ ∀ next ∈ step s i, CallsMeet step Ok next.1 is))

theorem callsMeet_of_forall (ok : ∀ s i, Ok s i) (s : σ) (is : List ι) : CallsMeet step Ok s is := by
  induction is generalizing s with
  | nil => trivial
  | cons i is ih => exact ⟨ok s i, fun next _ => ih next.1⟩

def finalState (step : τ → ι → τ × ω) (t : τ) (is : List ι) : τ := is.foldl (fun t i => (step t i).1) t

/-- The refinement rule: what one call keeps, every list of calls keeps. -/
theorem run_refines {spec : τ → ι → τ × ω} {R : σ → τ → Prop}
    (simulated : ∀ s t i, R s t → Ok s i → ∃ s', step s i = some (s', (spec t i).2) ∧
      R s' (spec t i).1) {s : σ} {t : τ}
    (related : R s t) {is : List ι} (calls : CallsMeet step Ok s is) :
    ∃ s', run step s is = some (s', outputs spec t is) ∧ R s' (finalState spec t is) := by
  induction is generalizing s t with
  | nil => exact ⟨s, rfl, related⟩
  | cons i is ih =>
    obtain ⟨_, stepped, related₁⟩ := simulated s t i related calls.1
    obtain ⟨s₂, rest, related₂⟩ := ih related₁ (calls.2 _ stepped)
    refine ⟨s₂, ?_, related₂⟩
    rw [run, stepped, Option.bind_some, rest]
    rfl

end KvmServer.Lib
