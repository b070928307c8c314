import Mathlib

/-! # Cutting a list where a limit is exceeded

A loop that fills a run until its size exceeds a limit, and starts the next run behind the element
that exceeded it. `Cut` says the same as a relation: all runs but the last one exceed the limit
with their last element. -/

namespace KvmServer.Lib
open List
variable {α : Type} (size : α → Nat)

def total (xs : List α) : Nat := (xs.map size).sum

@[simp] theorem total_nil : total size [] = 0 := rfl

@[simp] theorem total_cons (x : α) (xs : List α) : total size (x :: xs) = size x + total size xs := by
  simp [total]

@[simp] theorem total_append (xs ys : List α) :
    total size (xs ++ ys) = total size xs + total size ys := by
  simp [total]

variable (limit : Nat)

/-- The runs, where `current` is the beginning of the first one.  The last run is empty if the last
element exceeds the limit. -/
def runs (current : List α) : List α → List (List α)
  | [] => [current]
  | x :: xs =>
    if limit < total size current + size x then (current ++ [x]) :: runs [] xs
      else runs (current ++ [x]) xs

/-- The list is cut into so many runs, of which the last one does not exceed the limit. -/
inductive Cut : List α → Nat → Prop where
  | last {xs : List α} : xs ≠ [] → total size xs ≤ limit → Cut xs 1
  | run {front xs : List α} {x : α} {n : Nat} :
    total size front ≤ limit → limit < total size front + size x → Cut xs n →
    Cut (front ++ x :: xs) (n + 1)

variable {size limit} {cur xs pre : List α}

theorem runs_ne_nil (cur xs : List α) : runs size limit cur xs ≠ [] := by
  induction xs generalizing cur with
  | nil => simp [runs]
  | cons x xs ih =>
    rw [runs]
    split
    · exact cons_ne_nil _ _
    · exact ih _

theorem runs_flatten (cur xs : List α) : (runs size limit cur xs).flatten = cur ++ xs := by
  induction xs generalizing cur with
  | nil => simp [runs]
  | cons x xs ih =>
    rw [runs]
    split
    · rw [flatten_cons, ih]
      simp
    rw [ih]
    simp

theorem runs_of_total_le (fits : total size (cur ++ xs) ≤ limit) :
    runs size limit cur xs = [cur ++ xs] := by
  induction xs generalizing cur with
  | nil => rw [runs, append_nil]
  | cons x xs ih =>
    have same : cur ++ x :: xs = cur ++ [x] ++ xs := by simp
    rw [same] at fits ⊢
    rw [runs, if_neg, ih fits]
    simp only [total_append, total_cons, total_nil] at fits
    omega

theorem exists_run_of_lt_total (lo : total size cur ≤ limit) (beyond : limit < total size (cur ++ xs)) :
    ∃ run ∈ runs size limit cur xs, limit < total size run := by
  induction xs generalizing cur with
  | nil =>
    rw [append_nil] at beyond
    omega
  | cons x xs ih =>
    rw [runs]
    split
    · rename_i exceeds
      refine ⟨cur ++ [x], mem_cons_self, ?_⟩
      simpa using exceeds
    rename_i fits
    apply ih
    · simpa using fits
    · simpa using beyond

theorem total_run_le {bound : Nat} (lo : total size cur ≤ limit) (le : ∀ x ∈ xs, size x ≤ bound) :
    ∀ run ∈ runs size limit cur xs, total size run ≤ limit + bound := by
  induction xs generalizing cur with
  | nil =>
    intro run mem
    rw [runs, mem_singleton] at mem
    rw [mem]
    omega
  | cons x xs ih =>
    have rest : ∀ y ∈ xs, size y ≤ bound := fun y mem => le y (mem_cons_of_mem x mem)
    rw [runs]
    split
    · intro run mem
      cases mem with
      | head =>
        have last := le x mem_cons_self
        simp only [total_append, total_cons, total_nil]
        omega
      | tail _ later => exact @ih [] (Nat.zero_le limit) rest run later
    rename_i fits
    apply ih _ rest
    simpa using fits

theorem runs_some_iff (cur xs : List α) :
    (∀ run ∈ runs size limit cur xs, run ≠ []) ↔ (runs size limit cur xs).getLast? ≠ some [] := by
  induction xs generalizing cur with
  | nil => simp [runs]
  | cons x xs ih =>
    rw [runs]
    split
    · have later := ih []
      obtain ⟨run, _, got⟩ := exists_cons_of_ne_nil (@runs_ne_nil _ size limit [] xs)
      rw [got] at later ⊢
      rw [forall_mem_cons, later, getLast?_cons_cons]
      exact and_iff_right (append_ne_nil_of_right_ne_nil cur (cons_ne_nil x []))
    · exact ih _

theorem exceeding_unique {pre' xs' : List α} {x x' : α} (same : pre ++ x :: xs = pre' ++ x' :: xs')
    (lo : total size pre ≤ limit) (beyond : limit < total size pre + size x)
    (lo' : total size pre' ≤ limit) (beyond' : limit < total size pre' + size x') : xs = xs' := by
  induction pre generalizing pre' limit with
  | nil =>
    cases pre' with
    | nil => exact (cons.inj same).2
    | cons y pre' =>
      obtain ⟨rfl, -⟩ := cons.inj same
      simp only [total_nil, total_cons] at beyond lo'
      omega
  | cons y pre ih =>
    cases pre' with
    | nil =>
      obtain ⟨rfl, -⟩ := cons.inj same
      simp only [total_nil, total_cons] at beyond' lo
      omega
    | cons _ pre' =>
      obtain ⟨rfl, rest⟩ := cons.inj same
      simp only [total_cons] at lo beyond lo' beyond'
      exact @ih (limit - size y) pre' rest (by omega) (by omega) (by omega) (by omega)

theorem cut_exceeding_iff {x : α} (lo : total size pre ≤ limit)
    (beyond : limit < total size pre + size x) (n : Nat) :
    Cut size limit (pre ++ x :: xs) n ↔ ∃ m, n = m + 1 ∧ Cut size limit xs m := by
  constructor
  · intro cut
    generalize same : pre ++ x :: xs = all at cut
    cases cut with
    | last _ fits =>
      rw [← same] at fits
      simp only [total_append, total_cons] at fits
      omega
    | run lo' beyond' later =>
      rw [exceeding_unique same lo beyond lo' beyond']
      exact ⟨_, rfl, later⟩
  · rintro ⟨m, rfl, later⟩
    exact .run lo beyond later

theorem runs_cut_iff (lo : total size cur ≤ limit) (n : Nat) : Cut size limit (cur ++ xs) n ↔
      (runs size limit cur xs).length = n ∧ (runs size limit cur xs).getLast? ≠ some [] := by
  induction xs generalizing cur n with
  | nil =>
    rw [runs, append_nil]
    constructor
    · intro cut
      cases cut with
      | last some _ => exact ⟨rfl, by simpa using some⟩
      | run _ beyond _ =>
        simp only [total_append, total_cons] at lo
        omega
    rintro ⟨rfl, some⟩
    exact .last (by simpa using some) lo
  | cons x xs ih =>
    rw [runs]
    split
    · rename_i beyond
      have later := fun m => @ih [] (Nat.zero_le limit) m
      obtain ⟨run, _, got⟩ := exists_cons_of_ne_nil (@runs_ne_nil _ size limit [] xs)
      rw [cut_exceeding_iff lo beyond, length_cons]
      rw [got] at later ⊢
      constructor
      · rintro ⟨m, rfl, cut⟩
        obtain ⟨rfl, some⟩ := (later m).mp cut
        exact ⟨rfl, some⟩
      rintro ⟨rfl, some⟩
      exact ⟨_, rfl, (later _).mpr ⟨rfl, some⟩⟩
    rename_i fits
    rw [show cur ++ x :: xs = cur ++ [x] ++ xs by simp]
    apply ih
    simpa using fits

end KvmServer.Lib
