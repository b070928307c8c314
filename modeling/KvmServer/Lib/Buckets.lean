import Mathlib

/-! # Buckets

An array of chains, in which every element belongs to the chain its place says.  What is in the array is
its flattening, up to order. -/

namespace KvmServer.Lib
open List
variable {α : Type}

def Placed (place : α → Nat) (buckets : List (List α)) : Prop :=
    ∀ i, ∀ a ∈ buckets.getD i [], place a = i

def push (place : α → Nat) (buckets : List (List α)) (a : α) : List (List α) :=
  buckets.modify (place a) (a :: ·)

variable {i : Nat}

theorem exists_bucket (buckets : List (List α)) (lt : i < buckets.length) :
    ∃ before after, buckets = before ++ buckets.getD i [] :: after ∧
      ∀ f, buckets.modify i f = before ++ f (buckets.getD i []) :: after := by
  refine ⟨buckets.take i, buckets.drop (i + 1), ?_, fun f => ?_⟩
  · rw [getD_eq_getElem _ _ lt, getElem_cons_drop, take_append_drop]
  · rw [modify_eq_take_cons_drop lt, getD_eq_getElem _ _ lt]

theorem getD_modify (buckets : List (List α)) (lt : i < buckets.length) (f : List α → List α) (j : Nat) :
    (buckets.modify i f).getD j [] = if i = j then f (buckets.getD i []) else buckets.getD j [] := by
  rw [getD_eq_getElem?_getD, getElem?_modify]
  split
  next same =>
    subst same
    rw [getElem?_eq_getElem lt, getD_eq_getElem _ _ lt]
    rfl
  next => rw [id_map', getD_eq_getElem?_getD]

variable {place : α → Nat} {buckets : List (List α)} {a : α}

theorem Placed.mem_flatten_iff (placed : Placed place buckets) :
    a ∈ buckets.flatten ↔ a ∈ buckets.getD (place a) [] := by
  constructor
  · intro mem
    obtain ⟨_, inBuckets, inChain⟩ := mem_flatten.mp mem
    obtain ⟨i, lt, rfl⟩ := mem_iff_getElem.mp inBuckets
    rw [← getD_eq_getElem _ [] lt] at inChain
    rwa [placed i a inChain]
  intro mem
  by_cases lt : place a < buckets.length
  · rw [getD_eq_getElem _ _ lt] at mem
    exact mem_flatten_of_mem (getElem_mem lt) mem
  rw [getD_eq_default _ _ (not_lt.mp lt)] at mem
  cases mem

theorem Placed.modify (placed : Placed place buckets) (lt : i < buckets.length) {f : List α → List α}
    (kept : ∀ a ∈ f (buckets.getD i []), place a = i) : Placed place (buckets.modify i f) := by
  intro j a mem
  rw [getD_modify _ lt] at mem
  split at mem
  next same => exact same ▸ kept a mem
  next => exact placed j a mem

theorem Placed.replicate (place : α → Nat) (n : Nat) : Placed place (.replicate n []) := by
  intro i a mem
  rw [getD_eq_getElem?_getD, getElem?_replicate] at mem
  split at mem <;> cases mem

theorem Placed.filter (placed : Placed place buckets) (p : α → Bool) :
    Placed place (buckets.map (·.filter p)) := by
  intro i a mem
  rw [getD_eq_getElem?_getD, getElem?_map] at mem
  refine placed i a ?_
  rw [getD_eq_getElem?_getD]
  cases chain : buckets[i]? with
  | none =>
    rw [chain] at mem
    cases mem
  | some l =>
    rw [chain] at mem
    exact (mem_filter.mp mem).1

theorem flatten_push (lt : place a < buckets.length) :
    (push place buckets a).flatten.Perm (a :: buckets.flatten) := by
  obtain ⟨_, _, split, modified⟩ := exists_bucket buckets lt
  have all := congrArg flatten split
  rw [push, modified, all]
  simp only [flatten_append, flatten_cons, cons_append]
  exact perm_middle

theorem Placed.push (placed : Placed place buckets) (lt : place a < buckets.length) :
    Placed place (push place buckets a) := by
  refine placed.modify lt fun b mem => ?_
  cases mem_cons.mp mem with
  | inl same => rw [same]
  | inr old => exact placed _ b old

theorem foldl_push (bound : ∀ a, place a < buckets.length) (placed : Placed place buckets)
    (items : List α) :
    (items.foldl (Lib.push place) buckets).length = buckets.length ∧
    Placed place (items.foldl (Lib.push place) buckets) ∧
      (items.foldl (Lib.push place) buckets).flatten.Perm (items ++ buckets.flatten) := by
  induction items generalizing buckets with
  | nil => exact ⟨rfl, placed, .rfl⟩
  | cons a items ih =>
    have len : (Lib.push place buckets a).length = buckets.length := length_modify _ _ _
    obtain ⟨len', placed', perm⟩ := @ih (Lib.push place buckets a) (by rwa [len]) (placed.push (bound a))
    refine ⟨len'.trans len, placed', perm.trans ?_⟩
    exact ((flatten_push (bound a)).append_left items).trans perm_middle

end KvmServer.Lib
