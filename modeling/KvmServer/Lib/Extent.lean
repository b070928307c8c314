import Mathlib

/-! # First and last

The first and the last element of a set of numbers, found by going through it: `lo` starts above
every number that can come and `hi` at zero, and each element moves them to itself if it lies
outside. -/

namespace KvmServer.Lib

/-- `lo` and `hi` are the first and the last element of `s`; for an empty set they are above `limit`
and at zero. -/
structure Extent (s : Set Nat) (limit lo hi : Nat) : Prop where
  inside : ∀ x ∈ s, lo ≤ x ∧ x ≤ hi
  attained : s.Nonempty → lo ∈ s ∧ hi ∈ s
  untouched : s = ∅ → limit < lo ∧ hi = 0

theorem extent_empty {limit lo : Nat} (hi : limit < lo) : Extent ∅ limit lo 0 where
  inside := fun x mem => absurd mem (Set.notMem_empty x)
  attained := fun ⟨x, mem⟩ => absurd mem (Set.notMem_empty x)
  untouched := fun _ => ⟨hi, rfl⟩

theorem Extent.insert {s : Set Nat} {limit lo hi x : Nat} (extent : Extent s limit lo hi)
    (le : x ≤ limit) :
    Extent (insert x s) limit (if lo > x then x else lo) (if hi < x then x else hi) := by
  obtain empty | nonempty := s.eq_empty_or_nonempty
  · -- the first element becomes both ends
    obtain ⟨above, _⟩ := extent.untouched empty
    have last : (if hi < x then x else hi) = x := by split <;> omega
    rw [if_pos (lt_of_le_of_lt le above), last, empty]
    exact {
      inside := fun y member => by
        rw [Set.mem_insert_iff] at member
        obtain rfl | member := member
        · exact ⟨le_refl y, le_refl y⟩
        · exact absurd member (Set.notMem_empty y)
      attained := fun _ => ⟨Set.mem_insert x ∅, Set.mem_insert x ∅⟩
      untouched := fun same => absurd (same ▸ Set.mem_insert x ∅) (Set.notMem_empty x) }
  obtain ⟨fst, last⟩ := extent.attained nonempty
  exact {
    inside := fun y member => by
      rw [Set.mem_insert_iff] at member
      obtain rfl | member := member
      · constructor <;> split <;> omega
      have := extent.inside y member
      constructor <;> split <;> omega
    attained := fun _ => by
      constructor
      · split
        · exact Set.mem_insert x s
        · exact Set.mem_insert_of_mem x fst
      split
      · exact Set.mem_insert x s
      · exact Set.mem_insert_of_mem x last
    untouched := fun same => absurd (same ▸ Set.mem_insert x s) (Set.notMem_empty x) }

end KvmServer.Lib
