import Mathlib

/-! # Byte sources

A source hands its bytes out in pieces of any size and may fail to hand out any.  What each read
meets is fixed beforehand as a list of events. -/

namespace KvmServer.Lib
open List

inductive SourceEvent where
  /-- Up to `most` bytes are there. -/
  | ready (most : { n : Nat // 0 < n })
  | blocked (status : { i : Int // i ≤ 0 })

structure Source where
  unread : List UInt8
  events : List SourceEvent

structure SourceRead where
  status : Int
  data : List UInt8
  source : Source

variable (source : Source)

/-- A read of up to `n` bytes.  After the last event there are none. -/
def Source.read (n : Nat) : SourceRead :=
  if n = 0 then ⟨0, [], source⟩
  else
    match source.events with
    | [] => ⟨-1, [], source⟩
    | .blocked status :: events => ⟨status, [], { source with events := events }⟩
    | .ready most :: events =>
      let data := source.unread.take (min n most)
      ⟨data.length, data, ⟨source.unread.drop (min n most), events⟩⟩

/-- The reads that find bytes if there are any. -/
def Source.readies : Nat :=
  source.events.countP fun event =>
    match event with
    | .ready _ => true
    | .blocked _ => false

/-- Every byte that is left can still be handed out. -/
def Source.Enough : Prop := source.unread.length ≤ source.readies

theorem Source.read_cases {source : Source} {n : Nat} {P : SourceRead → Prop}
    (no : n = 0 → P ⟨0, [], source⟩)
    (fin : 0 < n → source.events = [] → P ⟨-1, [], source⟩)
    (blocked : ∀ status events, 0 < n → source.events = .blocked status :: events →
      P ⟨status, [], { source with events := events }⟩)
    (ready : ∀ most events, 0 < n → source.events = .ready most :: events →
      P ⟨(source.unread.take (min n most)).length, source.unread.take (min n most),
        ⟨source.unread.drop (min n most), events⟩⟩) :
    P (source.read n) := by
  unfold Source.read
  by_cases zero : n = 0
  · rw [if_pos zero]
    exact no zero
  rw [if_neg zero]
  have pos := Nat.pos_of_ne_zero zero
  cases events : source.events with
  | nil => exact fin pos events
  | cons ev rest =>
    cases ev with
    | blocked status => exact blocked status rest pos events
    | ready most => exact ready most rest pos events

theorem Source.read_data (n : Nat) :
    source.unread = (source.read n).data ++ (source.read n).source.unread := by
  apply @Source.read_cases source n fun res => source.unread = res.data ++ res.source.unread
  · intro _
    rfl
  · intro _ _
    rfl
  · intro _ _ _ _
    rfl
  intro _ _ _ _
  exact (take_append_drop _ _).symm

theorem Source.read_length_le (n : Nat) : (source.read n).data.length ≤ n := by
  apply @Source.read_cases source n fun res => res.data.length ≤ n
  · intro _
    exact Nat.zero_le _
  · intro _ _
    exact Nat.zero_le _
  · intro _ _ _ _
    exact Nat.zero_le _
  intro _ _ _ _
  exact le_trans (length_take_le _ _) (min_le_left _ _)

theorem Source.read_status (n : Nat) :
    (0 < (source.read n).data.length ∧ (source.read n).status = (source.read n).data.length) ∨
      ((source.read n).status ≤ 0 ∧ (source.read n).data = []) := by
  apply @Source.read_cases source n fun res =>
    (0 < res.data.length ∧ res.status = res.data.length) ∨ (res.status ≤ 0 ∧ res.data = [])
  · intro _
    exact .inr ⟨Int.le_refl 0, rfl⟩
  · intro _ _
    exact .inr ⟨Int.neg_le_zero_iff.mpr (Int.zero_le_ofNat 1), rfl⟩
  · intro status _ _ _
    exact .inr ⟨status.2, rfl⟩
  intro most _ _ _
  -- no byte is left, or some are handed out
  by_cases empty : source.unread.take (min n most) = []
  · exact .inr ⟨by simp [empty], empty⟩
  · exact .inl ⟨length_pos_iff.mpr empty, rfl⟩

theorem Source.read_events {source : Source} {n : Nat} (some : 0 < n) :
    (source.read n).source.events = source.events.tail := by
  apply @Source.read_cases source n fun res => res.source.events = source.events.tail
  · intro _
    omega
  · intro _ events
    rw [events, tail_nil]
  all_goals
    intro _ _ _ events
    rw [events, tail_cons]

variable {source a b : Source} {n m : Nat}

theorem Source.read_events_lt (some : 0 < n) (pass : 0 ≤ (source.read n).status) :
    (source.read n).source.events.length < source.events.length := by
  revert pass
  apply @Source.read_cases source n fun res =>
    0 ≤ res.status → res.source.events.length < source.events.length
  · intro _
    omega
  · intro _ _ pass
    exact absurd pass (by simp)
  all_goals
    intro _ _ _ events _
    rw [events]
    exact Nat.lt_succ_self _

theorem Source.Enough.read (room : source.Enough) (n : Nat) : (source.read n).source.Enough := by
  apply @Source.read_cases source n fun res => res.source.Enough
  · intro _
    exact room
  · intro _ _
    exact room
  · intro _ _ _ events
    unfold Source.Enough Source.readies at *
    simpa [events] using room
  intro _ _ _ events
  unfold Source.Enough Source.readies at *
  simp only [events, countP_cons, if_true] at room
  simp only [length_drop]
  omega

theorem Source.Enough.unread_eq_nil (room : source.Enough) (fin : source.events = []) :
    source.unread = [] := by
  unfold Source.Enough Source.readies at room
  rw [fin] at room
  exact length_eq_zero_iff.mp (Nat.le_zero.mp room)

/-- Whoever goes from `source` to `source'` has used `n` events, if there were that many, and has
passed over no byte. -/
structure Source.Spent (n : Nat) (source source' : Source) : Prop where
  enough : source.Enough → source'.Enough
  events : source'.events.length ≤ source.events.length - n

theorem Source.Spent.refl (source : Source) : Source.Spent 0 source source := ⟨id, le_rfl⟩

theorem Source.Spent.trans {c : Source} (fst : Source.Spent m a b) (second : Source.Spent n b c) :
    Source.Spent (m + n) a c := by
  refine ⟨fun room => second.enough (fst.enough room), ?_⟩
  have pre := fst.events
  have after := second.events
  omega

theorem Source.Spent.mono (spent : Source.Spent n a b) (fewer : m ≤ n) : Source.Spent m a b := by
  refine ⟨spent.enough, ?_⟩
  have used := spent.events
  omega

theorem Source.read_spent (source : Source) (some : 0 < n) :
    Source.Spent 1 source (source.read n).source := by
  have tail : (source.read n).source.events.length = source.events.length - 1 := by
    rw [Source.read_events some, length_tail]
  exact ⟨fun room => room.read n, le_of_eq tail⟩

theorem Source.Spent.unread_eq_nil {src' : Source} (spent : Source.Spent n source src')
    (room : source.Enough) (all : source.events.length ≤ n) : src'.unread = [] := by
  apply (spent.enough room).unread_eq_nil
  apply length_eq_zero_iff.mp
  have used := spent.events
  omega

end KvmServer.Lib
