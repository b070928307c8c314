import Mathlib

/-! # Hash table (`utils/collections/HashTable.c`)

Keys and values are what the pointers stand for, `none` being `NULL`; a copy of `fnObjectNew`
stands for the same. Allocations succeed. -/

namespace KvmServer.Winpr

/-- What a table is set up with: the hash and the equality of its keys, and the three decisions that are
made in `float` arithmetic. -/
structure HashConfig (K : Type) where
  hash : K → UInt32
  fnObjectEquals : K → K → Bool
  equivalence : Equivalence fun a b => fnObjectEquals a b = true
  compatible : ∀ a b, fnObjectEquals a b = true → hash a = hash b
  /-- The elements over `idealRatio`, rounded down. -/
  idealQuotient : Nat → Nat
  /-- Elements per bucket are above an `upperRehashThreshold` that is above `idealRatio`. -/
  aboveUpper : Nat → Nat → Bool
  /-- Elements per bucket are below a positive `lowerRehashThreshold`. -/
  belowLower : Nat → Nat → Bool

structure KeyValuePair (K V : Type) where
  key : K
  value : Option V
  markedForRemove : Bool
deriving DecidableEq

structure HashTable (K V : Type) where
  (numOfBuckets numOfElements : Nat)
  bucketArray : List (List (KeyValuePair K V))
  (foreachRecursionLevel pendingRemoves : Nat)
deriving DecidableEq

def hashTableNew (K V : Type) : HashTable K V :=
  { numOfBuckets := 64
    numOfElements := 0
    bucketArray := .replicate 64 []
    foreachRecursionLevel := 0
    pendingRemoves := 0 }

def wrapDec (w n : Nat) : Nat := if n = 0 then 2 ^ w - 1 else n - 1

/-! ## The number of buckets -/

/-- The candidates of `HashTable_IsProbablePrime`. -/
def smallOdds : List Nat := (List.range 24).map fun i => 3 + 2 * i

def hashTableIsProbablePrime (oddNumber : Nat) : Bool :=
  go smallOdds
where
  go : List Nat → Bool
  | [] => true
  | i :: is => if oddNumber = i then true else if oddNumber % i = 0 then false else go is

theorem isProbablePrime_of_not_dvd {n : Nat} {is : List Nat} (coprime : ∀ i ∈ is, ¬i ∣ n) :
    hashTableIsProbablePrime.go n is = true := by
  induction is with
  | nil => rfl
  | cons i is ih =>
    rw [hashTableIsProbablePrime.go]
    split
    · rfl
    rw [if_neg fun zero => coprime i List.mem_cons_self (Nat.dvd_of_mod_eq_zero zero)]
    exact ih fun j mem => coprime j (List.mem_cons_of_mem _ mem)

theorem exists_probablePrime (n : Nat) : ∃ k, hashTableIsProbablePrime (n + 2 * k) = true := by
  -- an even `p`, such that `p + 1` is the product of the candidates
  obtain ⟨m, product⟩ : ∃ m, smallOdds.prod = 2 * m + 1 := ⟨smallOdds.prod / 2, by decide +kernel⟩
  refine ⟨(m + 1) * (2 * m * n + 1), isProbablePrime_of_not_dvd fun i mem divides => ?_⟩
  have sum : n + 2 * ((m + 1) * (2 * m * n + 1)) = smallOdds.prod * ((2 * m + 1) * n + 1) + 1 := by
    rw [product]
    ring
  rw [sum, Nat.dvd_add_right ((List.dvd_prod mem).mul_right _), Nat.dvd_one] at divides
  exact absurd (divides ▸ mem) (by decide)

/-- The `while` loop of `HashTable_CalculateIdealNumOfBuckets`. -/
def nextProbablePrime (n : Nat) : Nat :=
  if hashTableIsProbablePrime n then n else nextProbablePrime (n + 2)
termination_by Nat.find (exists_probablePrime n)
decreasing_by
  -- the first hit is one step closer
  rename_i notPrime
  have hit := Nat.find_spec (exists_probablePrime n)
  cases steps : Nat.find (exists_probablePrime n) with
  | zero =>
    rw [steps, mul_zero, add_zero] at hit
    exact absurd hit notPrime
  | succ k =>
    rw [steps] at hit
    refine Nat.lt_succ_of_le (Nat.find_min' _ ?_)
    rwa [show n + 2 + 2 * k = n + 2 * (k + 1) by omega]

section
variable {K V : Type} (cfg : HashConfig K)
variable (table : HashTable K V)

def hashTableCalculateIdealNumOfBuckets : Nat :=
  let idealNumOfBuckets := cfg.idealQuotient table.numOfElements
  nextProbablePrime (if idealNumOfBuckets < 5 then 5 else idealNumOfBuckets ||| 1)

def bucketOf (numOfBuckets : Nat) (key : K) : Nat := (cfg.hash key).toNat % numOfBuckets

def relink (numOfBuckets : Nat) (newBucketArray : List (List (KeyValuePair K V)))
    (pair : KeyValuePair K V) :
    List (List (KeyValuePair K V)) :=
  newBucketArray.modify (bucketOf cfg numOfBuckets pair.key) (pair :: ·)

def hashTableRehash (numOfBuckets : Nat) : HashTable K V :=
  let numOfBuckets :=
    if numOfBuckets = 0 then hashTableCalculateIdealNumOfBuckets cfg table else numOfBuckets
  if numOfBuckets = table.numOfBuckets then table
  else
    { table with
      bucketArray := table.bucketArray.foldl (fun new chain => chain.foldl (relink cfg numOfBuckets) new)
        (.replicate numOfBuckets [])
      numOfBuckets := numOfBuckets }

/-! ## The operations -/

def hashTableEquals (pair : KeyValuePair K V) (key : K) : Bool := cfg.fnObjectEquals key pair.key

def hashTableGet (key : K) : Option (KeyValuePair K V) :=
  (table.bucketArray.getD (bucketOf cfg table.numOfBuckets key) []).find? (hashTableEquals cfg · key)

def setPair (key : K) (pair : KeyValuePair K V) : List (List (KeyValuePair K V)) :=
  table.bucketArray.modify (bucketOf cfg table.numOfBuckets key)
    (·.replaceF fun old => if hashTableEquals cfg old key then some pair else none)

def hashTableCount : Nat := table.numOfElements

variable (key : Option K)

def hashTableInsert (value : Option V) : HashTable K V × Bool :=
  match key, value with
  | some key, some value =>
    match hashTableGet cfg table key with
    | some pair =>
      -- an entry that was set to be removed is recycled
      let table :=
        if pair.markedForRemove then
          { table with
            pendingRemoves := wrapDec 32 table.pendingRemoves
            numOfElements := table.numOfElements + 1
            bucketArray := setPair cfg table key ⟨key, some value, false⟩ }
        else { table with bucketArray := setPair cfg table key ⟨key, some value, false⟩ }
      (table, true)
    | none =>
      let table :=
        { table with
          bucketArray := relink cfg table.numOfBuckets table.bucketArray ⟨key, some value, false⟩
          numOfElements := table.numOfElements + 1 }
      if table.foreachRecursionLevel = 0 ∧ cfg.aboveUpper table.numOfElements table.numOfBuckets then
        (hashTableRehash cfg table 0, true)
      else (table, true)
  | _, _ => (table, false)

def hashTableRemove : HashTable K V × Bool :=
  match key with
  | none => (table, false)
  | some key =>
    match hashTableGet cfg table key with
    | none => (table, false)
    | some pair =>
      if table.foreachRecursionLevel ≠ 0 then
        -- just mark the entry
        ({ table with
            bucketArray := setPair cfg table key { pair with markedForRemove := true }
            pendingRemoves := (table.pendingRemoves + 1) % 2 ^ 32
            numOfElements := wrapDec 64 table.numOfElements }, true)
      else
        let table :=
          { table with
            bucketArray := table.bucketArray.modify (bucketOf cfg table.numOfBuckets key)
              (·.eraseP (hashTableEquals cfg · key))
            numOfElements := wrapDec 64 table.numOfElements }
        if cfg.belowLower table.numOfElements table.numOfBuckets then (hashTableRehash cfg table 0, true)
        else (table, true)

def hashTableGetItemValue : Option V :=
  match key with
  | none => none
  | some key =>
    match hashTableGet cfg table key with
    | some pair => if pair.markedForRemove then none else pair.value
    | none => none

def hashTableSetItemValue (value : Option V) : HashTable K V × Bool :=
  match key with
  | none => (table, false)
  | some key =>
    match hashTableGet cfg table key with
    | some pair =>
      if pair.markedForRemove then (table, false)
      else ({ table with bucketArray := setPair cfg table key { pair with value := value } }, true)
    | none => (table, false)

def hashTableContainsKey : Bool :=
  match key with
  | none => false
  | some key =>
    match hashTableGet cfg table key with
    | some pair => !pair.markedForRemove
    | none => false

/-- `none`: inside of a `HashTable_Foreach` the loop over a chain that is not empty never ends. -/
def hashTableClear : Option (HashTable K V) :=
  if table.foreachRecursionLevel ≠ 0 ∧ table.bucketArray.any (!·.isEmpty) then none
  else
    let table :=
      { table with bucketArray := table.bucketArray.map fun _ => [], numOfElements := 0 }
    some (if table.foreachRecursionLevel = 0 then hashTableRehash cfg table 5 else table)

end

/-- The count and the array of that length, whose cells start as `NULL`; `none` is a write behind it. -/
def hashTableGetKeys {K V : Type} (table : HashTable K V) : Option (Nat × List (Option K)) :=
  let count := table.numOfElements
  if count < 1 then some (0, [])
  else
    let live := table.bucketArray.flatten.filter fun pair => !pair.markedForRemove
    if live.length ≤ count then
      some (count, live.map (fun pair => some pair.key) ++ .replicate (count - live.length) none)
    else none

end KvmServer.Winpr
