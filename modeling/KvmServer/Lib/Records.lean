import Mathlib

/-! # Records up to a declared count

A section announces its bytes, and a loop reads records until its offset has reached that count.
It does not stop inside of a record, so it takes the declared count exactly if that is the length
of a whole number of records. -/

namespace KvmServer.Lib

variable {σ β : Type} (step : σ → List β → Option (σ × Nat × List β))

def Progresses : Prop :=
  ∀ ⦃s bytes s' size rest⦄, step s bytes = some (s', size, rest) → rest.length < bytes.length

variable {step}

/-- Read records while the 32 bit offset is below `count`; a record moves the offset by the size it
claims. -/
def readUntil (progresses : Progresses step) (count : Nat) (s : σ) (bytes : List β) (offset : Nat) :
    Option (σ × List β) :=
  if offset < count then
    match read : step s bytes with
    | none => none
    | some (s, size, rest) => readUntil progresses count s rest ((offset + size) % 2 ^ 32)
  else some (s, bytes)
termination_by bytes.length
decreasing_by exact progresses read

variable {offset : Nat} {s s' : σ} {bytes rest : List β}

section
variable (progs : Progresses step)
include progs

theorem readUntil_of_reached {count : Nat} (s : σ) (bytes : List β)
    (reached : ¬offset < count) : readUntil progs count s bytes offset = some (s, bytes) := by
  rw [readUntil, if_neg reached]

theorem readUntil_of_step {count : Nat} {size : Nat} (pre : offset < count)
    (read : step s bytes = some (s', size, rest)) :
    readUntil progs count s bytes offset = readUntil progs count s' rest ((offset + size) % 2 ^ 32) := by
  rw [readUntil, if_pos pre]
  split
  next fail =>
    rw [read] at fail
    cases fail
  next again =>
    rw [read] at again
    cases again
    rfl

theorem readUntil_of_none {count : Nat} (pre : offset < count)
    (fail : step s bytes = none) : readUntil progs count s bytes offset = none := by
  rw [readUntil, if_pos pre]
  split
  next => rfl
  next read =>
    rw [fail] at read
    cases read

end

variable (step)

def records : Nat → σ → List β → Option (σ × List β)
  | 0, s, bytes => some (s, bytes)
  | n + 1, s, bytes =>
    match step s bytes with
    | none => none
    | some (s, _, rest) => records n s rest

/-- The declared count is the length of a whole number of records in front of `rest`, read into a
`Good` state. -/
def WholeRecords (count : Nat) (Good : σ → Prop) (s : σ) (bytes : List β)
    (offset : Nat) (rest : List β) : Prop :=
  ∃ n s', records step n s bytes = some (s', rest) ∧ offset + bytes.length = count + rest.length ∧
    Good s'

variable {step} {count : Nat} {Good : σ → Prop} {n : Nat} {others : List β}

theorem records_of_readUntil {progresses : Progresses step}
    (read : readUntil progresses count s bytes offset = some (s', rest)) :
    ∃ n, records step n s bytes = some (s', rest) := by
  induction len : bytes.length using Nat.strongRecOn generalizing s bytes offset with
  | ind len ih =>
    by_cases pre : offset < count
    · cases fst : step s bytes with
      | none =>
        rw [readUntil_of_none progresses pre fst] at read
        cases read
      | some _ =>
        rw [readUntil_of_step progresses pre fst] at read
        obtain ⟨n, others⟩ := ih _ (len ▸ progresses fst) read rfl
        refine ⟨n + 1, ?_⟩
        rw [records, fst]
        exact others
    · rw [readUntil_of_reached progresses s bytes pre] at read
      exact ⟨0, read⟩

theorem readUntil_rest {progresses : Progresses step}
    (read : readUntil progresses count s bytes offset = some (s', rest)) :
    rest.length ≤ bytes.length := by
  obtain ⟨n, all⟩ := records_of_readUntil read
  clear read
  induction n generalizing s bytes with
  | zero =>
    cases all
    exact le_rfl
  | succ n ih =>
    rw [records] at all
    split at all
    · cases all
    next fst => exact le_trans (ih all) (le_of_lt (progresses fst))

/-- A record into a good state comes from a good state, and claims the size it has. -/
def HonestWhen (step : σ → List β → Option (σ × Nat × List β)) (Good : σ → Prop) : Prop :=
  ∀ ⦃s bytes s' size rest⦄, step s bytes = some (s', size, rest) → Good s' →
    Good s ∧ 0 < size ∧ size + rest.length = bytes.length

theorem HonestWhen.progresses (honest : HonestWhen step fun _ => True) : Progresses step := by
  intro s _ _ _ _ read
  have := honest read trivial
  omega

theorem good_of_records (honest : HonestWhen step Good) (read : records step n s bytes = some (s', rest))
    (good : Good s') : Good s ∧ rest.length + n ≤ bytes.length := by
  induction n generalizing s bytes with
  | zero =>
    cases read
    exact ⟨good, le_rfl⟩
  | succ n ih =>
    rw [records] at read
    split at read
    · cases read
    next next _ _ fst =>
      obtain ⟨goodNext, _⟩ := ih read
      obtain ⟨goodFst, _, _⟩ := honest fst goodNext
      exact ⟨goodFst, by omega⟩

theorem readUntil_stops (progresses : Progresses step) (honest : HonestWhen step Good) {t : σ}
    (lt : offset + bytes.length < 2 ^ 32) (all : records step n s bytes = some (t, others))
    (ends : offset + bytes.length = count + others.length) (good : Good t) :
    readUntil progresses count s bytes offset = some (t, others) := by
  induction n generalizing s bytes offset with
  | zero =>
    cases all
    exact readUntil_of_reached progresses _ _ (by omega)
  | succ n ih =>
    have ⟨_, shorter⟩ := good_of_records honest all good
    rw [records] at all
    split at all
    · cases all
    next next _ _ fst =>
      obtain ⟨_, _, _⟩ := honest fst (good_of_records honest all good).1
      rw [readUntil_of_step progresses (by omega) fst, Nat.mod_eq_of_lt (by omega)]
      exact ih (by omega) all (by omega)

/-- What the loop leaves when the declared bytes are a whole number of records. -/
theorem WholeRecords.readUntil_eq (all : WholeRecords step count Good s bytes offset others)
    (progresses : Progresses step) (honest : HonestWhen step Good)
    (lt : offset + bytes.length < 2 ^ 32) :
    ∃ s', readUntil progresses count s bytes offset = some (s', others) ∧
      offset + bytes.length = count + others.length ∧ Good s' := by
  obtain ⟨n, t, all, ends, good⟩ := all
  exact ⟨t, readUntil_stops progresses honest lt all ends good, ends, good⟩

theorem wholeRecords_of_readUntil {progresses : Progresses step}
    (read : readUntil progresses count s bytes offset = some (s', rest))
    (ends : offset + bytes.length = count + rest.length) (good : Good s') :
    WholeRecords step count Good s bytes offset rest := by
  obtain ⟨n, all⟩ := records_of_readUntil read
  exact ⟨n, s', all, ends, good⟩

end KvmServer.Lib
