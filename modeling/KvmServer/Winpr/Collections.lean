import Mathlib

/-! # Searching collections (`winpr/utils/collections`) -/

namespace KvmServer.Winpr

/-! ## Array lists -/

abbrev SSIZE_MAX : Nat := 2 ^ 63 - 1

structure ArrayList (α : Type) where
  elements : List α
  fits : elements.length ≤ SSIZE_MAX

variable {α : Type} (list : ArrayList α) (equals : α → α → Bool) (obj : α) (startIndex count : Int64)
  {equal : Nat → Option Bool}

def ArrayList.equalAt (index : Nat) : Option Bool := list.elements[index]?.map (equals · obj)

def searchStart (startIndex : Int64) : Nat := startIndex.toInt.toNat

def ArrayList.searchCount : Nat := if count.toInt < 0 then list.elements.length else count.toInt.toNat

def indexOfLoop (equal : Nat → Option Bool) : Nat → Nat → Option Int
  | _, 0 => some (-1)
  | index, left + 1 =>
    match equal index with
    | none => none
    | some true => some index
    | some false => indexOfLoop equal (index + 1) left

def lastIndexOfLoop (equal : Nat → Option Bool) (sindex : Nat) : Nat → Option Int
  | 0 => some (-1)
  | left + 1 =>
    match equal (sindex + left) with
    | none => none
    -- the index has not been decremented yet
    | some true => some (sindex + left + 1 : Nat)
    | some false => lastIndexOfLoop equal sindex left

/-- A sum that overflows is undefined. -/
def ArrayList.search (loop : (Nat → Option Bool) → Nat → Nat → Option Int) : Option Int :=
  if searchStart startIndex + list.searchCount count > SSIZE_MAX then none
  else loop (list.equalAt equals obj) (searchStart startIndex) (list.searchCount count)

def arrayListIndexOf : Option Int := list.search equals obj startIndex count indexOfLoop

def arrayListLastIndexOf : Option Int := list.search equals obj startIndex count lastIndexOfLoop

def ArrayList.Hit (p : Nat) : Prop :=
  searchStart startIndex ≤ p ∧ (0 ≤ count.toInt → p < searchStart startIndex + count.toInt.toNat) ∧
    list.equalAt equals obj p = some true

/-- The search stays inside the list and gives the first hit in the order, or -1. -/
def Finds (hit : Nat → Prop) (before : Nat → Nat → Prop) (result : Option Int) : Prop :=
  (∃ p : Nat, result = some (p : Int) ∧ hit p ∧ ∀ q, hit q → before p q) ∨
    (result = some (-1) ∧ ∀ p, ¬hit p)

def ArrayList.SearchesRight : Prop :=
  Finds (list.Hit equals obj startIndex count) (· ≤ ·)
    (arrayListIndexOf list equals obj startIndex count) ∧
    Finds (list.Hit equals obj startIndex count) (· ≥ ·)
      (arrayListLastIndexOf list equals obj startIndex count)

theorem searches_miss {sindex n : Nat}
    (missing : ∀ i, sindex ≤ i → i < sindex + n → equal i = some false) :
    indexOfLoop equal sindex n = some (-1) ∧ lastIndexOfLoop equal sindex n = some (-1) := by
  constructor
  · induction n generalizing sindex with
    | zero => rfl
    | succ n ih =>
      simp only [indexOfLoop, missing sindex (by omega) (by omega)]
      exact ih fun i hi lo => missing i (by omega) (by omega)
  induction n with
  | zero => rfl
  | succ n ih =>
    simp only [lastIndexOfLoop, missing (sindex + n) (by omega) (by omega)]
    exact ih fun i hi lo => missing i hi (by omega)

theorem lastIndexOfLoop_spec {sindex n : Nat} {p : Nat}
    (got : lastIndexOfLoop equal sindex n = some (p : Int)) :
    ∀ i, p ≤ i → i < sindex + n → equal i ≠ some true := by
  induction n with
  | zero => cases got
  | succ n ih =>
    rw [lastIndexOfLoop] at got
    split at got
    · cases got
    · obtain rfl := Int.ofNat.inj (Option.some.inj got)
      omega
    case h_3 missing =>
      intro i hi lo
      obtain rfl | less := Nat.eq_or_lt_of_le (Nat.le_of_lt_succ lo)
      · simp [missing]
      · exact ih got i hi less

/-- Both searches are right exactly when the range is empty, or inside the list and without a hit. -/
theorem arrayList_searches_right_iff :
    list.SearchesRight equals obj startIndex count ↔ list.searchCount count = 0 ∨
        (searchStart startIndex + list.searchCount count ≤ list.elements.length ∧
          ∀ p, ¬list.Hit equals obj startIndex count p) := by
  have fits := list.fits
  have st : searchStart startIndex ≤ SSIZE_MAX := by
    have lo := startIndex.toInt_lt
    simp only [searchStart, SSIZE_MAX]
    omega
  have range {p : Nat} (hit : list.Hit equals obj startIndex count p) :
      p < searchStart startIndex + list.searchCount count ∧ p < list.elements.length := by
    obtain ⟨-, lo, equal⟩ := hit
    obtain ⟨x, elem, -⟩ := Option.map_eq_some_iff.mp equal
    obtain ⟨inside, -⟩ := List.getElem?_eq_some_iff.mp elem
    unfold ArrayList.searchCount
    split <;> omega
  constructor
  · rintro ⟨-, right⟩
    unfold arrayListLastIndexOf ArrayList.search at right
    cases len : list.searchCount count with
    | zero => exact .inl rfl
    | succ n =>
      rw [len] at right range
      split at right
      · obtain ⟨p, stuck, -⟩ | ⟨stuck, -⟩ := right <;> cases stuck
      by_cases inside : searchStart startIndex + (n + 1) ≤ list.elements.length
      · refine .inr ⟨inside, fun p hit => ?_⟩
        obtain ⟨q, got, last, -⟩ | ⟨-, none⟩ := right
        · exact lastIndexOfLoop_spec got q (Nat.le_refl q) (range last).1 last.2.2
        · exact none p hit
      have outside : list.equalAt equals obj (searchStart startIndex + n) = none := by
        simp [ArrayList.equalAt, show list.elements.length ≤ searchStart startIndex + n by omega]
      simp [lastIndexOfLoop, outside, Finds] at right
  intro safe
  have missing : ∀ i, searchStart startIndex ≤ i → i < searchStart startIndex + list.searchCount count →
      list.equalAt equals obj i = some false := by
    intro i hi lo
    obtain empty | ⟨inside, none⟩ := safe
    · omega
    have elem : list.elements[i]? = some list.elements[i] := List.getElem?_eq_getElem (by omega)
    cases same : equals list.elements[i] obj with
    | false => simp [ArrayList.equalAt, elem, same]
    | true =>
      refine absurd ⟨hi, fun cnt => ?_, by simp [ArrayList.equalAt, elem, same]⟩ (none i)
      rwa [ArrayList.searchCount, if_neg (by omega)] at lo
  have never : ∀ p, ¬list.Hit equals obj startIndex count p := fun p hit => by
    have := missing p hit.1 (range hit).1
    simp [hit.2.2] at this
  obtain ⟨forward, backward⟩ := searches_miss missing
  have lt : ¬searchStart startIndex + list.searchCount count > SSIZE_MAX := by
    obtain empty | ⟨inside, -⟩ := safe <;> omega
  exact ⟨.inr ⟨by rw [arrayListIndexOf, ArrayList.search, if_neg lt, forward], never⟩,
    .inr ⟨by rw [arrayListLastIndexOf, ArrayList.search, if_neg lt, backward], never⟩⟩

/-- The only 7 of a list stands at position 0; the last one is reported at position 1. -/
theorem arrayListLastIndexOf_off_by_one :
    arrayListLastIndexOf ⟨[7], by decide⟩ (· == ·) 7 (-1) (-1) = some 1 ∧
      ¬ArrayList.SearchesRight ⟨[7], by decide⟩ (· == ·) 7 (-1) (-1) := by
  have backward : arrayListLastIndexOf ⟨[7], by decide⟩ (· == ·) 7 (-1) (-1) = some 1 := by decide
  refine ⟨backward, ?_⟩
  rintro ⟨-, ⟨p, got, hit, -⟩ | ⟨none, -⟩⟩
  · obtain rfl := Int.ofNat.inj (Option.some.inj (backward.symm.trans got))
    cases hit.2.2
  · cases backward.symm.trans none

/-! ## Queues -/

/-- The slots hold pointers; `null` is what an empty one holds. -/
structure Queue (α : Type) where
  (capacity growthFactor head tail size : Nat)
  array : Nat → α

variable (null : α)
variable (queue : Queue α)

/-- The memory is there; a size above it would be an address that wraps. -/
def queueEnsureCapacity (count : Nat) : Queue α :=
  if queue.size + count ≥ queue.capacity then
    let product := queue.capacity * queue.growthFactor % 2 ^ 64
    let capacity := if product < queue.size + count then queue.size + count else product
    let array := fun i => if queue.capacity ≤ i then null else queue.array i
    -- rearrange wrapped entries
    if queue.tail ≤ queue.head then
      { queue with
        capacity
        array := fun i =>
          if queue.capacity ≤ i ∧
            i < queue.capacity + queue.tail then queue.array (i - queue.capacity) else array i
        tail := queue.tail + queue.capacity }
    else { queue with capacity, array }
  else queue

/-- Sizes that are not positive stand for the defaults. -/
def queueNew (capacity growthFactor : Int) : Queue α :=
  let growthFactor := if growthFactor > 0 then growthFactor.toNat else 2
  let capacity := if capacity ≤ 0 then 32 else capacity.toNat
  queueEnsureCapacity null ⟨0, growthFactor, 0, 0, 0, fun _ => null⟩ capacity

def queueEnqueue (obj : α) : Queue α :=
  let queue := queueEnsureCapacity null queue 1
  { queue with
    array := fun i => if i = queue.tail then obj else queue.array i
    tail := (queue.tail + 1) % queue.capacity
    size := queue.size + 1 }

def queueDequeue : Queue α × α :=
  if queue.size > 0 then
    ({ queue with
        array := fun i => if i = queue.head then null else queue.array i
        head := (queue.head + 1) % queue.capacity
        size := queue.size - 1 }, queue.array queue.head)
  else (queue, null)

def queueContains (equals : α → α → Bool) (queue : Queue α) (obj : α) : Bool :=
  (List.range queue.tail).any fun index => equals (queue.array index) obj

inductive QueueCall (α : Type) where
  | enqueue (obj : α)
  | dequeue

def queueCall (queue : Queue α) : QueueCall α → Queue α
  | .enqueue obj => queueEnqueue null queue obj
  | .dequeue => (queueDequeue null queue).1

/-- The elements that a queue has according to the calls: first in, first out. -/
def fifoCall (items : List α) : QueueCall α → List α
  | .enqueue obj => items ++ [obj]
  | .dequeue => items.tail

def queueItems (calls : List (QueueCall α)) : List α := calls.foldl fifoCall []

def queueAfter (capacity growthFactor : Int) (calls : List (QueueCall α)) : Queue α :=
  calls.foldl (queueCall null) (queueNew null capacity growthFactor)

/-- Where the queue keeps its element number `i`. -/
def Queue.slot (i : Nat) : Nat := (queue.head + i) % queue.capacity

/-- The search finds an object exactly if one of the elements is equal to it. -/
def ContainsRight (equals : α → α → Bool) (queue : Queue α) (items : List α) (obj : α) : Prop :=
  queueContains equals queue obj = true ↔ ∃ item ∈ items, equals item obj = true

/-! ### The ring -/

/-- The elements stand in the ring from the head on, and at least one slot stays free. -/
structure Queue.Holds (growth : Nat) (queue : Queue α) (items : List α) : Prop where
  size : queue.size = items.length
  room : items.length < queue.capacity
  two : 2 ≤ queue.capacity
  factor : queue.growthFactor = growth
  head : queue.head < queue.capacity
  tail : queue.tail = queue.slot items.length
  slots : ∀ i item, items[i]? = some item → queue.array (queue.slot i) = item

variable {null} {queue} {items : List α} {growth : Nat}

theorem Queue.slot_eq {i : Nat} (head : queue.head < queue.capacity) (fits : i < queue.capacity) :
    queue.slot i =
      if queue.head + i < queue.capacity then queue.head + i else queue.head + i - queue.capacity := by
  rw [Queue.slot]
  split
  · next straight => exact Nat.mod_eq_of_lt straight
  · rw [Nat.mod_eq_sub_mod (by omega), Nat.mod_eq_of_lt (by omega)]

/-- Growing keeps the elements: those that had wrapped around are copied behind the old end. -/
theorem ensureCapacity_holds (grows : 2 ≤ growth) (holds : queue.Holds growth items)
    (memory : (items.length + 1) * growth < 2 ^ 64) :
    (queueEnsureCapacity null queue 1).Holds growth items ∧
      items.length + 1 < (queueEnsureCapacity null queue 1).capacity := by
  have ⟨size, room, two, factor, head, tail, slots⟩ := holds
  by_cases full : queue.size + 1 ≥ queue.capacity
  case neg =>
    rw [queueEnsureCapacity, if_neg full]
    exact ⟨holds, by omega⟩
  have double : queue.capacity * 2 ≤ queue.capacity * growth := Nat.mul_le_mul_left _ grows
  rw [show items.length + 1 = queue.capacity by omega] at memory
  simp only [queueEnsureCapacity, if_pos full, factor, Nat.mod_eq_of_lt memory]
  generalize queue.capacity * growth = capacity at *
  have larger : queue.capacity ≤ capacity := by omega
  have straight {i : Nat} (bound : i ≤ items.length) : (queue.head + i) % capacity = queue.head + i :=
    Nat.mod_eq_of_lt (by omega)
  rw [if_neg (show ¬capacity < queue.size + 1 by omega)]
  rw [Queue.slot_eq head room] at tail
  split
  · have wrapped : ¬queue.head + items.length < queue.capacity := by
      intro fits
      rw [if_pos fits] at tail
      omega
    rw [if_neg wrapped] at tail
    refine ⟨⟨size, room.trans_le larger, two.trans larger, rfl, head.trans_le larger, ?_,
      fun i item here => ?_⟩, by dsimp only; omega⟩
    · rw [Queue.slot, straight le_rfl]
      dsimp only
      omega
    · have bound : i < items.length := (List.getElem?_eq_some_iff.mp here).1
      have slot := slots i item here
      rw [Queue.slot_eq head (bound.trans room)] at slot
      dsimp only [Queue.slot]
      rw [straight bound.le, ← slot]
      by_cases low : queue.head + i < queue.capacity
      · rw [if_neg (by omega), if_neg (by omega), if_pos low]
      · rw [if_pos (by omega), if_neg low]
  · have fits : queue.head + items.length < queue.capacity := by
      by_contra wrapped
      rw [if_neg wrapped] at tail
      omega
    rw [if_pos fits] at tail
    refine ⟨⟨size, room.trans_le larger, two.trans larger, rfl, head.trans_le larger,
      tail.trans (straight le_rfl).symm, fun i item here => ?_⟩, by dsimp only; omega⟩
    have bound : i < items.length := (List.getElem?_eq_some_iff.mp here).1
    have slot := slots i item here
    rw [Queue.slot_eq head (bound.trans room), if_pos (by omega)] at slot
    dsimp only [Queue.slot]
    rw [straight bound.le, if_neg (by omega), slot]

theorem enqueue_holds (grows : 2 ≤ growth) (holds : queue.Holds growth items)
    (memory : (items.length + 1) * growth < 2 ^ 64) (obj : α) :
    (queueEnqueue null queue obj).Holds growth (items ++ [obj]) := by
  obtain ⟨⟨size, room, two, factor, head, tail, slots⟩, free⟩ :=
    @ensureCapacity_holds _ null _ _ _ grows holds memory
  unfold queueEnqueue
  generalize queueEnsureCapacity null queue 1 = queue at *
  refine ⟨?_, ?_, two, factor, head, ?_, fun i item here => ?_⟩
  · simp [size]
  · simpa using free
  · simp [tail, Queue.slot, Nat.add_assoc]
  have bound : i < items.length + 1 := by
    simpa using (List.getElem?_eq_some_iff.mp here).1
  show (if queue.slot i = queue.tail then obj else queue.array (queue.slot i)) = item
  rw [tail]
  by_cases last : i = items.length
  · subst last
    simpa using here
  · have other : queue.slot i ≠ queue.slot items.length := by
      rw [Queue.slot_eq head (by omega), Queue.slot_eq head room]
      split <;> split <;> omega
    rw [if_neg other]
    rw [List.getElem?_append_left (by omega)] at here
    exact slots i item here

theorem dequeue_holds (holds : queue.Holds growth items) :
    (queueDequeue null queue).1.Holds growth items.tail := by
  have ⟨size, room, two, factor, head, tail, slots⟩ := holds
  unfold queueDequeue
  cases items with
  | nil =>
    rw [if_neg (by simp [size])]
    exact holds
  | cons item items =>
    rw [List.length_cons] at size room tail
    rw [if_pos (by omega)]
    have next (i : Nat) :
        ((queue.head + 1) % queue.capacity + i) % queue.capacity = queue.slot (i + 1) := by
      rw [Queue.slot, Nat.mod_add_mod]
      congr 1
      omega
    refine ⟨by simp [size], by simp; omega, two, factor, Nat.mod_lt _ (by omega), ?_, fun i item' here => ?_⟩
    · rw [Queue.slot]
      exact tail.trans (next items.length).symm
    · have bound : i < items.length := (List.getElem?_eq_some_iff.mp here).1
      dsimp only [Queue.slot]
      have other : queue.slot (i + 1) ≠ queue.head := by
        rw [Queue.slot_eq head (by omega)]
        split <;> omega
      rw [next, if_neg other]
      exact slots (i + 1) item' here

theorem queueCalls_hold (grows : 2 ≤ growth) {calls : List (QueueCall α)} {bound : Nat}
    (memory : bound * growth < 2 ^ 64) (holds : queue.Holds growth items)
    (few : items.length + calls.length ≤ bound) :
    (calls.foldl (queueCall null) queue).Holds growth (calls.foldl fifoCall items) := by
  induction calls generalizing queue items with
  | nil => exact holds
  | cons call calls ih =>
    rw [List.length_cons] at few
    cases call with
    | enqueue obj =>
      have room : (items.length + 1) * growth < 2 ^ 64 :=
        (Nat.mul_le_mul_right growth (by omega)).trans_lt memory
      refine ih (enqueue_holds grows holds room obj) ?_
      rw [fifoCall, List.length_append, List.length_singleton]
      omega
    | dequeue =>
      refine ih (dequeue_holds holds) ?_
      rw [fifoCall, List.length_tail]
      omega

theorem queueAfter_holds {capacity : Nat} (slots : 2 ≤ capacity) (grows : 2 ≤ growth)
    {calls : List (QueueCall α)} (memory : calls.length * growth < 2 ^ 64) :
    (queueAfter null capacity growth calls).Holds growth (queueItems calls) := by
  have new : queueNew null capacity growth = ⟨capacity, growth, 0, 0, 0, fun _ => null⟩ := by
    simp [queueNew, queueEnsureCapacity, show 0 < growth by omega, show ¬capacity = 0 by omega]
  rw [queueAfter, new]
  refine queueCalls_hold grows memory ⟨rfl, ?_, slots, rfl, ?_, (Nat.zero_mod _).symm, ?_⟩
    (Nat.zero_add _).le
  · exact show 0 < capacity by omega
  · exact show 0 < capacity by omega
  · intro i item here
    cases here

/-! ### The search -/

/-- Four slots that wrap around: of the elements 3, 4 and 5 only the last one is found. -/
def wrappedCalls : List (QueueCall Nat) :=
  [.enqueue 1, .enqueue 2, .dequeue, .dequeue, .enqueue 3, .enqueue 4, .enqueue 5]

end KvmServer.Winpr
