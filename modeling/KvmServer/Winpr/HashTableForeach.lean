import KvmServer.Winpr.HashTableMap

/-! # Iterating over a hash table that is modified (`HashTable_Foreach`)

A callback is a tree of calls.  While an iteration runs no pair is unlinked and new pairs are put
in front of their chain, so a pair is known by the number of pairs that follow it. -/

namespace KvmServer.Winpr
open Lib List

/-! ## The iteration -/

inductive TableEvent (K V : Type) where
  | inserted (key : Option K) (value : Option V)
  /-- `marked`: the key's entry had already been marked for removal. -/
  | removed (key : Option K) (marked : Bool)
  | returned (ok : Bool)
deriving DecidableEq

structure IterState (K V S : Type) where
  table : HashTable K V
  log : List (TableEvent K V)
  arg : S

section
variable {K V S : Type} (fn : K → Option V → IterState K V S → IterState K V S × Bool)

def walkChain (index : Nat) : Nat → IterState K V S → IterState K V S × Bool
  | 0, s => (s, true)
  | following + 1, s =>
    match (s.table.bucketArray.getD index []).reverse[following]? with
    | none => (s, true)
    | some pair =>
      if pair.markedForRemove then walkChain index following s
      else
        let (s, ok) := fn pair.key pair.value s
        if ok then walkChain index following s else (s, false)

def walkBuckets : List Nat → IterState K V S → IterState K V S × Bool
  | [], s => (s, true)
  | index :: indices, s =>
    let (s, ok) := walkChain fn index (s.table.bucketArray.getD index []).length s
    if ok then walkBuckets indices s else (s, false)

def cleanup (table : HashTable K V) : HashTable K V :=
  { table with
    bucketArray := table.bucketArray.map (·.filter KeyValuePair.isLive)
    pendingRemoves := 0 }

def IterState.enter (s : IterState K V S) : IterState K V S :=
  { s with table := { s.table with foreachRecursionLevel := s.table.foreachRecursionLevel + 1 } }

def hashTableForeach (s : IterState K V S) : IterState K V S × Bool :=
  let (s, ok) := walkBuckets fn (.range s.table.numOfBuckets) s.enter
  -- `goto out`
  if !ok then (s, false)
  else
    let table := { s.table with foreachRecursionLevel := s.table.foreachRecursionLevel - 1 }
    if table.foreachRecursionLevel = 0 ∧ table.pendingRemoves ≠ 0 then
      ({ s with table := cleanup table }, true)
    else ({ s with table := table }, true)

end

inductive TableProgram (K V S : Type) where
  | done (arg : S) (ok : Bool)
  | insert (key : Option K) (value : Option V) (next : Bool → TableProgram K V S)
  | remove (key : Option K) (next : Bool → TableProgram K V S)
  | getItemValue (key : Option K) (next : Option V → TableProgram K V S)
  | containsKey (key : Option K) (next : Bool → TableProgram K V S)
  | count (next : Nat → TableProgram K V S)
  | foreach (fn : K → Option V → S → TableProgram K V S) (arg : S) (next : S → Bool → TableProgram K V S)

section
variable {K V S : Type} (cfg : HashConfig K)

def isMarked (table : HashTable K V) (key : Option K) : Bool :=
  (key.bind (hashTableGet cfg table)).any KeyValuePair.markedForRemove

def TableProgram.run : TableProgram K V S → IterState K V S → IterState K V S × Bool
  | .done arg ok, s => ({ s with arg := arg, log := s.log ++ [.returned ok] }, ok)
  | .insert key value next, s =>
    let (table, ok) := hashTableInsert cfg s.table key value
    (next ok).run { s with table := table, log := s.log ++ [.inserted key value] }
  | .remove key next, s =>
    let (table, ok) := hashTableRemove cfg s.table key
    (next ok).run { s with table := table, log := s.log ++ [.removed key (isMarked cfg s.table key)] }
  | .getItemValue key next, s => (next (hashTableGetItemValue cfg s.table key)).run s
  | .containsKey key next, s => (next (hashTableContainsKey cfg s.table key)).run s
  | .count next, s => (next (hashTableCount s.table)).run s
  | .foreach fn arg next, s =>
    let (s, ok) := hashTableForeach (fun key value s => (fn key value s.arg).run s) { s with arg := arg }
    (next s.arg ok).run s

end

/-! ## What an iteration keeps -/

variable {K V S : Type} {cfg : HashConfig K}

def applyEvent (cfg : HashConfig K) (m : HashMap cfg V) : TableEvent K V → HashMap cfg V
  | .inserted (some key) (some value) => m.insert (cfg.classOf key) (some value)
  | .removed (some key) _ => m.erase (cfg.classOf key)
  | _ => m

def applyEvents (cfg : HashConfig K) (m : HashMap cfg V) (log : List (TableEvent K V)) : HashMap cfg V :=
  log.foldl (applyEvent cfg) m

def TableEvent.isRemove : TableEvent K V → Bool
  | .removed .. => true
  | _ => false

/-- No early exit, and no removal of an entry that is already marked for removal. -/
def TableEvent.isRegular : TableEvent K V → Bool
  | .inserted .. => true
  | .removed _ marked => !marked
  | .returned ok => ok

/-- The table inside of an iteration that started with the map `m`. -/
structure Inside (cfg : HashConfig K) (m : HashMap cfg V) (s : IterState K V S) : Prop where
  represents : Represents cfg s.table (applyEvents cfg m s.log)
  level : s.table.foreachRecursionLevel ≠ 0
  marked : s.table.pairs.countP KeyValuePair.markedForRemove ≤ s.log.countP TableEvent.isRemove

def Evolves (cfg : HashConfig K) (m : HashMap cfg V) (s : IterState K V S)
    (result : IterState K V S × Bool) : Prop :=
  ∃ events, result.1.log = s.log ++ events ∧ ((∀ e ∈ events, e.isRegular = true) → Inside cfg m s →
    result.2 = true ∧ Inside cfg m result.1 ∧
      result.1.table.foreachRecursionLevel = s.table.foreachRecursionLevel)

section
variable {m : HashMap cfg V} {s : IterState K V S}

theorem Evolves.refl (s : IterState K V S) : Evolves cfg m s (s, true) :=
  ⟨[], (append_nil _).symm, fun _ inside => ⟨rfl, inside, rfl⟩⟩

theorem Evolves.trans {fst second : IterState K V S × Bool} (pre : Evolves cfg m s fst)
    (after : Evolves cfg m fst.1 second) : Evolves cfg m s second := by
  obtain ⟨events, log, kept⟩ := pre
  obtain ⟨events', log', kept'⟩ := after
  refine ⟨events ++ events', by rw [log', log, append_assoc], fun reg inside => ?_⟩
  obtain ⟨-, inb₁, level₁⟩ := kept (fun e member => reg e (mem_append_left _ member)) inside
  obtain ⟨ok, inb₂, level₂⟩ := kept' (fun e member => reg e (mem_append_right _ member)) inb₁
  exact ⟨ok, inb₂, level₂.trans level₁⟩

variable {table : HashTable K V}

theorem Represents.withLevel (rep : Represents cfg table m) (level : Nat) :
    Represents cfg { table with foreachRecursionLevel := level } m :=
  ⟨rep.length, rep.positive, rep.placed, rep.distinct, rep.entries, rep.elements, rep.pending⟩

theorem marked_le {table' : HashTable K V} {m' : HashMap cfg V} (rep : Represents cfg table' m')
    (kept : ∀ pair ∈ table'.pairs, pair ∈ table.pairs ∨ pair.isLive = true) :
    table'.pairs.countP KeyValuePair.markedForRemove ≤
    table.pairs.countP KeyValuePair.markedForRemove := by
  rw [countP_eq_length_filter, countP_eq_length_filter]
  have nodup : (table'.pairs.filter KeyValuePair.markedForRemove).Nodup := rep.distinct.of_map.filter _
  refine (nodup.subperm fun pair mem => ?_).length_le
  obtain ⟨inTable, mark⟩ := mem_filter.mp mem
  cases kept pair inTable with
  | inl old => exact mem_filter.mpr ⟨old, mark⟩
  | inr live =>
    rw [KeyValuePair.isLive, mark] at live
    cases live

theorem Inside.enter (inside : Inside cfg m s) : Inside cfg m s.enter :=
  ⟨inside.represents.withLevel _, Nat.succ_ne_zero _, inside.marked⟩

theorem applyEvents_append (m : HashMap cfg V) (log : List (TableEvent K V)) (e : TableEvent K V) :
    applyEvents cfg m (log ++ [e]) = applyEvent cfg (applyEvents cfg m log) e :=
  foldl_append

theorem Inside.logged (inside : Inside cfg m s) {e : TableEvent K V}
    (no : applyEvent cfg (applyEvents cfg m s.log) e = applyEvents cfg m s.log) (arg : S) :
    Inside cfg m { s with log := s.log ++ [e], arg := arg } := by
  refine ⟨?_, inside.level, ?_⟩
  · rw [applyEvents_append, no]
    exact inside.represents
  rw [countP_append]
  exact le_trans inside.marked (Nat.le_add_right _ _)

theorem insert_evolves (key : Option K) (value : Option V) : Evolves cfg m s ({ s with
      table := (hashTableInsert cfg s.table key value).1
      log := s.log ++ [.inserted key value] }, true) := by
  refine ⟨[.inserted key value], rfl, fun _ inside => ⟨rfl, ?_⟩⟩
  match key, value with
  | some key, some value =>
    obtain ⟨rep, -, level, kept⟩ := inside.represents.insert key value
    refine ⟨⟨?_, level ▸ inside.level, ?_⟩, level⟩
    · rw [applyEvents_append]
      exact rep
    rw [countP_append]
    exact le_trans (marked_le rep kept) inside.marked
  | some _, none => exact ⟨inside.logged rfl s.arg, rfl⟩
  | none, some _ => exact ⟨inside.logged rfl s.arg, rfl⟩
  | none, none => exact ⟨inside.logged rfl s.arg, rfl⟩

theorem remove_evolves (key : Option K) : Evolves cfg m s ({ s with
      table := (hashTableRemove cfg s.table key).1
      log := s.log ++ [.removed key (isMarked cfg s.table key)] }, true) := by
  refine ⟨[.removed key (isMarked cfg s.table key)], rfl, fun reg inside => ⟨rfl, ?_⟩⟩
  cases key with
  | none => exact ⟨inside.logged rfl s.arg, rfl⟩
  | some key =>
    have once : ∀ pair ∈ hashTableGet cfg s.table key, pair.markedForRemove = false := by
      intro pair get
      have notMark := reg _ mem_cons_self
      rw [TableEvent.isRegular, isMarked, Option.bind_some, get, Option.any_some] at notMark
      exact Bool.eq_false_of_not_eq_true' notMark
    obtain ⟨rep, level, count⟩ := inside.represents.remove_mark inside.level key once
    refine ⟨⟨?_, level ▸ inside.level, ?_⟩, level⟩
    · rw [applyEvents_append]
      exact rep
    rw [countP_append]
    exact le_trans count (Nat.succ_le_succ inside.marked)

variable {fn : K → Option V → IterState K V S → IterState K V S × Bool}

section
variable (cb : ∀ key value s, Evolves cfg m s (fn key value s))
include cb

theorem walkChain_evolves (idx following : Nat) (s : IterState K V S) :
    Evolves cfg m s (walkChain fn idx following s) := by
  induction following generalizing s with
  | zero => exact .refl s
  | succ following ih =>
    rw [walkChain]
    split
    · exact .refl s
    next pair _ =>
      split
      · exact ih s
      have called := cb pair.key pair.value s
      dsimp only
      cases ok : (fn pair.key pair.value s).2 with
      | true => exact called.trans (ih _)
      | false =>
        rw [← Prod.mk.eta (p := fn pair.key pair.value s), ok] at called
        exact called

theorem walkBuckets_evolves (indices : List Nat) (s : IterState K V S) :
    Evolves cfg m s (walkBuckets fn indices s) := by
  induction indices generalizing s with
  | nil => exact .refl s
  | cons idx indices ih =>
    have walked := walkChain_evolves cb idx (s.table.bucketArray.getD idx []).length s
    rw [walkBuckets]
    dsimp only
    cases ok : (walkChain fn idx (s.table.bucketArray.getD idx []).length s).2 with
    | true => exact walked.trans (ih _)
    | false =>
      rw [← Prod.mk.eta (p := walkChain fn idx _ s), ok] at walked
      exact walked

theorem hashTableForeach_evolves (s : IterState K V S) : Evolves cfg m s (hashTableForeach fn s) := by
  obtain ⟨events, log, kept⟩ := walkBuckets_evolves cb (.range s.table.numOfBuckets) s.enter
  unfold hashTableForeach
  dsimp only
  cases ok : (walkBuckets fn (.range s.table.numOfBuckets) s.enter).2 with
  | false =>
    refine ⟨events, log, fun reg inside => ?_⟩
    have completed := (kept reg inside.enter).1
    rw [ok] at completed
    cases completed
  | true =>
    rw [Bool.not_true, if_neg Bool.false_ne_true]
    refine ⟨events, by split <;> exact log, fun reg inside => ?_⟩
    obtain ⟨-, walked, level⟩ := kept reg inside.enter
    have back :
        (walkBuckets fn (.range s.table.numOfBuckets) s.enter).1.table.foreachRecursionLevel - 1 =
        s.table.foreachRecursionLevel := by
      rw [level]
      rfl
    rw [if_neg fun outermost => inside.level (back ▸ outermost.1)]
    exact ⟨rfl, ⟨walked.represents.withLevel _, back ▸ inside.level, walked.marked⟩, back⟩

end

theorem TableProgram.run_evolves (program : TableProgram K V S) (s : IterState K V S) :
    Evolves cfg m s (program.run cfg s) := by
  induction program generalizing s with
  | done arg ok =>
    refine ⟨[.returned ok], rfl, fun reg inside => ⟨reg _ mem_cons_self, inside.logged rfl arg, rfl⟩⟩
  | insert key value next ih => exact (insert_evolves key value).trans (ih _ _)
  | remove key next ih => exact (remove_evolves key).trans (ih _ _)
  | getItemValue key next ih => exact ih _ s
  | containsKey key next ih => exact ih _ s
  | count next ih => exact ih _ s
  | foreach fn arg next callback ih =>
    have entry : Evolves cfg m s ({ s with arg := arg }, true) :=
      ⟨[], (append_nil _).symm,
        fun _ inside => ⟨rfl, ⟨inside.represents, inside.level, inside.marked⟩, rfl⟩⟩
    exact (entry.trans
      (hashTableForeach_evolves (fun key value s => callback key value s.arg s) _)).trans (ih _ _ _)

theorem Represents.cleanup (rep : Represents cfg table m) :
    Represents cfg (cleanup table) m ∧ ∀ pair ∈ (Winpr.cleanup table).pairs, pair.isLive = true := by
  have pairs : (Winpr.cleanup table).pairs = table.pairs.filter KeyValuePair.isLive :=
    filter_flatten.symm
  refine ⟨@Represents.change _ _ _ _ _ rep _ _ (table.pairs.filter KeyValuePair.isLive) rfl
    (length_map _) (rep.placed.filter _) (pairs ▸ .rfl)
    (rep.distinct.sublist (filter_sublist.map _)) ?_ ?_ ?_, fun pair mem => ?_⟩
  · intro c v
    rw [rep.entries c v]
    constructor
    · rintro ⟨pair, mem, same, live, value⟩
      exact ⟨pair, mem_filter.mpr ⟨mem, live⟩, same, live, value⟩
    rintro ⟨pair, mem, facts⟩
    exact ⟨pair, (mem_filter.mp mem).1, facts⟩
  · rw [countP_filter]
    simp only [Bool.and_self]
    exact rep.elements
  · rw [countP_marked_eq_zero fun pair mem => (mem_filter.mp mem).2]
    rfl
  · rw [pairs] at mem
    exact (mem_filter.mp mem).2

end

/-- An iteration leaves the map that the events of its callback make. -/
theorem Represents.foreach {table : HashTable K V} {m : HashMap cfg V} (rep : Represents cfg table m)
    (done : Settled table) {fn : K → Option V → IterState K V S → IterState K V S × Bool}
    (callback : ∀ key value s, Evolves cfg m s (fn key value s)) (arg : S) {res : IterState K V S × Bool}
    (ran : hashTableForeach fn ⟨table, [], arg⟩ = res) (reg : ∀ e ∈ res.1.log, e.isRegular = true)
    (few : res.1.log.countP TableEvent.isRemove < 2 ^ 32) :
    Represents cfg res.1.table (applyEvents cfg m res.1.log) ∧ Settled res.1.table := by
  have inside : Inside cfg m (IterState.enter ⟨table, [], arg⟩) :=
    ⟨rep.withLevel _, Nat.succ_ne_zero _, le_of_eq (countP_marked_eq_zero done.unmarked)⟩
  obtain ⟨events, log, kept⟩ :=
    walkBuckets_evolves callback (.range table.numOfBuckets) (IterState.enter ⟨table, [], arg⟩)
  unfold hashTableForeach at ran
  dsimp only at ran
  generalize walked :
    walkBuckets fn (.range table.numOfBuckets) (IterState.enter ⟨table, [], arg⟩) = walk at ran log kept
  have sameLog : res.1.log = walk.1.log := by
    rw [← ran]
    split
    · rfl
    · split <;> rfl
  rw [sameLog] at reg few ⊢
  have evsLog : walk.1.log = events := log
  obtain ⟨ok, inside', level⟩ := kept (evsLog ▸ reg) inside
  have back : walk.1.table.foreachRecursionLevel - 1 = 0 := by
    rw [level]
    exact done.level
  rw [ok, Bool.not_true, if_neg Bool.false_ne_true, back] at ran
  rw [← ran]
  by_cases pending : walk.1.table.pendingRemoves = 0
  · -- nothing is pending: the counter cannot have wrapped around
    rw [if_neg fun outermost => outermost.2 pending]
    refine ⟨inside'.represents.withLevel 0, rfl, fun pair mem => KeyValuePair.isLive_iff.mpr ?_⟩
    have none : walk.1.table.pairs.countP KeyValuePair.markedForRemove = 0 := by
      have count := inside'.represents.pending
      rw [pending, Nat.mod_eq_of_lt (lt_of_le_of_lt inside'.marked few)] at count
      exact count.symm
    exact Bool.eq_false_of_not_eq_true (countP_eq_zero.mp none pair mem)
  rw [if_pos ⟨rfl, pending⟩]
  obtain ⟨cleaned, live⟩ := (inside'.represents.withLevel 0).cleanup
  exact ⟨cleaned, rfl, live⟩

/-- An iteration in which no callback returns `FALSE` or removes an entry twice leaves a settled
table, which stands for the map with the inserts and removes applied in order. -/
theorem hashTableForeach_settles {table : HashTable K V} {m : HashMap cfg V}
    (represents : Represents cfg table m)
    (settled : Settled table) (fn : K → Option V → S → TableProgram K V S) (arg : S)
    {result : IterState K V S × Bool}
    (ran : hashTableForeach (fun key value s => (fn key value s.arg).run cfg s) ⟨table, [], arg⟩ =
      result) (regular : ∀ e ∈ result.1.log, e.isRegular = true)
    (few : result.1.log.countP TableEvent.isRemove < 2 ^ 32) :
    result.1.table.foreachRecursionLevel = 0 ∧
    (∀ pair ∈ result.1.table.pairs, pair.markedForRemove = false) ∧
      hashTableCount result.1.table = (applyEvents cfg m result.1.log).keys.card ∧
      (∀ key, hashTableContainsKey cfg result.1.table (some key) =
        decide (cfg.classOf key ∈ applyEvents cfg m result.1.log)) ∧
      ∀ key, hashTableGetItemValue cfg result.1.table (some key) =
        ((applyEvents cfg m result.1.log).lookup (cfg.classOf key)).join := by
  obtain ⟨represents', done'⟩ := represents.foreach settled
    (fun key value s => (fn key value s.arg).run_evolves s) arg ran regular few
  exact ⟨done'.level, fun pair mem => KeyValuePair.isLive_iff.mp (done'.unmarked pair mem),
    represents'.count, represents'.containsKey, represents'.getItemValue⟩

/-! ### A table of numbers -/

def numberConfig : HashConfig Nat where
  hash := UInt32.ofNat
  fnObjectEquals := (· == ·)
  equivalence := ⟨fun a => beq_self_eq_true a, fun same => by simp_all, fun first second => by simp_all⟩
  compatible := fun a b same => by simp_all
  idealQuotient := fun _ => 0
  aboveUpper := fun _ _ => false
  belowLower := fun _ _ => false

def numberTable : HashTable Nat Nat :=
  (hashTableInsert numberConfig
    (hashTableInsert numberConfig (hashTableNew Nat Nat) (some 1) (some 10)).1
    (some 2) (some 20)).1

def replaceCallback (key : Nat) (_ : Option Nat) (_ : Unit) : TableProgram Nat Nat Unit :=
  .remove (some key) fun _ =>
    .foreach (fun _ _ _ => .insert (some 7) (some 70) fun _ => .done () true) () fun _ _ =>
    .done () true

def removeTwiceCallback (key : Nat) (_ : Option Nat) (_ : Unit) : TableProgram Nat Nat Unit :=
  .remove (some key) fun _ => .remove (some key) fun _ => .done () true

def stopCallback (_ : Nat) (_ : Option Nat) (_ : Unit) : TableProgram Nat Nat Unit := .done () false

def numberForeach (fn : Nat → Option Nat → Unit → TableProgram Nat Nat Unit) :
    IterState Nat Nat Unit × Bool :=
  hashTableForeach (fun key value s => (fn key value s.arg).run numberConfig s) ⟨numberTable, [], ()⟩

def numberMap : HashMap numberConfig Nat :=
  (Finmap.insert (numberConfig.classOf 1) (some 10) ∅).insert (numberConfig.classOf 2) (some 20)

theorem numberTable_represents :
    Represents numberConfig numberTable numberMap ∧ Settled numberTable := by
  obtain ⟨empty, done⟩ := @hashTableNew_represents _ Nat numberConfig
  obtain ⟨fst, -, level₁, kept₁⟩ := empty.insert 1 10
  obtain ⟨second, -, level₂, kept₂⟩ := fst.insert 2 20
  refine ⟨second, (level₂.trans level₁).trans done.level, fun pair mem => ?_⟩
  cases kept₂ pair mem with
  | inl old => exact (kept₁ pair old).elim (done.unmarked pair) id
  | inr live => exact live

/-- A callback that removes its key and inserts another from an inner loop leaves a settled
table. -/
theorem hashTableForeach_settles_replaced :
    (∀ e ∈ (numberForeach replaceCallback).1.log, e.isRegular = true) ∧
      (numberForeach replaceCallback).1.log.countP TableEvent.isRemove < 2 ^ 32 ∧
      (numberForeach replaceCallback).1.table.foreachRecursionLevel = 0 ∧
      (∀ pair ∈ (numberForeach replaceCallback).1.table.pairs, pair.markedForRemove = false) ∧
      hashTableCount (numberForeach replaceCallback).1.table =
        (applyEvents numberConfig numberMap (numberForeach replaceCallback).1.log).keys.card ∧
      (∀ key, hashTableContainsKey numberConfig (numberForeach replaceCallback).1.table
        (some key) = decide (numberConfig.classOf key ∈ applyEvents numberConfig numberMap
          (numberForeach replaceCallback).1.log)) ∧
      ∀ key, hashTableGetItemValue numberConfig (numberForeach replaceCallback).1.table (some key) =
        ((applyEvents numberConfig numberMap (numberForeach replaceCallback).1.log).lookup
          (numberConfig.classOf key)).join := by
  have reg : ∀ e ∈ (numberForeach replaceCallback).1.log, e.isRegular = true := by decide +kernel
  have few : (numberForeach replaceCallback).1.log.countP TableEvent.isRemove < 2 ^ 32 :=
    by decide +kernel
  exact ⟨reg, few,
    hashTableForeach_settles numberTable_represents.1 numberTable_represents.2 replaceCallback ()
    rfl reg few⟩

/-- A callback that stops the iteration leaves the level raised; entries that are removed twice are
counted twice. -/
theorem hashTableForeach_unsettled : (numberForeach stopCallback).1.table.foreachRecursionLevel = 1 ∧
      (numberForeach removeTwiceCallback).1.table.pairs = [] ∧
      hashTableCount (numberForeach removeTwiceCallback).1.table = 2 ^ 64 - 2 := by
  decide +kernel

end KvmServer.Winpr
