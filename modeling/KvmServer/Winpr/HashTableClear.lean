import KvmServer.Winpr.HashTableForeach

/-! # Clearing a hash table and searching it for values

The loop of `HashTable_Clear` over a chain moves on only outside of an iteration, and
`HashTable_ContainsValue` compares with the keys. -/

namespace KvmServer.Winpr

variable {K V : Type}

/-! ## Clearing -/

/-- The loop over a chain: the pairs that were disposed of and `pendingRemoves`.  `none`: not done
after `fuel` rounds. -/
def clearChain (inForeach : Bool) :
    Nat → List (KeyValuePair K V) → List (KeyValuePair K V) → Nat →
    Option (List (KeyValuePair K V) × Nat)
  | 0, _, _, _ => none
  | _ + 1, [], disposed, pendingRemoves => some (disposed, pendingRemoves)
  | fuel + 1, pair :: next, disposed, pendingRemoves =>
    if inForeach then
      -- the same pair is looked at again
      clearChain inForeach fuel ({ pair with markedForRemove := true } :: next) disposed
        ((pendingRemoves + 1) % 2 ^ 32)
    else clearChain inForeach fuel next (disposed ++ [pair]) pendingRemoves

def clearChains (inForeach : Bool) (fuel : Nat) :
    List (List (KeyValuePair K V)) → List (KeyValuePair K V) → Nat →
    Option (List (KeyValuePair K V) × Nat)
  | [], disposed, pendingRemoves => some (disposed, pendingRemoves)
  | chain :: chains, disposed, pendingRemoves =>
    (clearChain inForeach fuel chain disposed pendingRemoves).bind fun (disposed, pendingRemoves) =>
      clearChains inForeach fuel chains disposed pendingRemoves

def HashTable.emptied (table : HashTable K V) (pendingRemoves : Nat) : HashTable K V :=
  { table with bucketArray := table.bucketArray.map fun _ => [], numOfElements := 0, pendingRemoves }

variable (cfg : HashConfig K)

def clearLoop (fuel : Nat) (table : HashTable K V) : Option (HashTable K V × List (KeyValuePair K V)) :=
  (clearChains (table.foreachRecursionLevel ≠ 0) fuel table.bucketArray [] table.pendingRemoves).map
    fun (disposed, pendingRemoves) =>
      (if table.foreachRecursionLevel = 0 then hashTableRehash cfg (table.emptied pendingRemoves) 5
        else table.emptied pendingRemoves, disposed)

/-- The call returns, and then, or after the iterations around it, the table is empty and every pair
disposed of once. -/
def ClearsAll (table : HashTable K V) : Prop :=
  ∃ fuel table' disposed, clearLoop cfg fuel table = some (table', disposed) ∧
    (if table.foreachRecursionLevel = 0 then table' else cleanup table').pairs = [] ∧
      hashTableCount table' = 0 ∧
    disposed.Perm table.pairs

variable {chain disposed disposed' : List (KeyValuePair K V)} {chains : List (List (KeyValuePair K V))}
  {fuel pending pending' : Nat} (cfg : HashConfig K) (table : HashTable K V) (pendRemoves : Nat)

theorem clearChain_outside (room : chain.length < fuel) :
    clearChain false fuel chain disposed pending = some (disposed ++ chain, pending) := by
  induction fuel generalizing chain disposed with
  | zero => simp at room
  | succ fuel ih =>
    cases chain with
    | nil => simp [clearChain]
    | cons _ _ => simp [clearChain, ih (Nat.lt_of_succ_lt_succ room)]

theorem clearChains_outside (room : ∀ chain ∈ chains, chain.length < fuel) :
    clearChains false fuel chains disposed pending = some (disposed ++ chains.flatten, pending) := by
  induction chains generalizing disposed with
  | nil => simp [clearChains]
  | cons chain chains ih =>
    obtain ⟨fst, others⟩ := List.forall_mem_cons.mp room
    simp [clearChains, clearChain_outside fst, ih others]

theorem clearChains_empty {inForeach : Bool} (empty : ∀ chain ∈ chains, chain = []) :
    clearChains inForeach 1 chains disposed pending = some (disposed, pending) := by
  induction chains with
  | nil => rfl
  | cons chain chains ih =>
    obtain ⟨rfl, others⟩ := List.forall_mem_cons.mp empty
    simp [clearChains, clearChain, ih others]

theorem clearChain_inside (pair : KeyValuePair K V) (next : List (KeyValuePair K V)) :
    clearChain true fuel (pair :: next) disposed pending = none := by
  induction fuel generalizing pair pending with
  | zero => rfl
  | succ fuel ih => simp [clearChain, ih]

theorem clearChains_inside (got : clearChains true fuel chains disposed pending =
    some (disposed', pending')) : chains.flatten = [] := by
  induction chains generalizing disposed pending with
  | nil => rfl
  | cons chain chains ih =>
    obtain ⟨⟨_, _⟩, fst, others⟩ := Option.bind_eq_some_iff.mp got
    cases chain with
    | nil => exact ih others
    | cons _ _ => simp [clearChain_inside] at fst

theorem clearChain_pending {inForeach : Bool}
    (got : clearChain inForeach fuel chain disposed pending = some (disposed', pending')) :
    pending' = pending := by
  induction fuel generalizing chain disposed with
  | zero => cases got
  | succ fuel ih =>
    cases chain with
    | nil =>
      cases got
      rfl
    | cons pair next =>
      cases inForeach with
      | true =>
        rw [clearChain_inside] at got
        cases got
      | false => exact ih got

theorem clearChains_pending {inForeach : Bool}
    (got : clearChains inForeach fuel chains disposed pending = some (disposed', pending')) :
    pending' = pending := by
  induction chains generalizing disposed pending with
  | nil =>
    cases got
    rfl
  | cons chain chains ih =>
    obtain ⟨⟨_, _⟩, fst, others⟩ := Option.bind_eq_some_iff.mp got
    exact (ih others).trans (clearChain_pending fst)

/-- `hashTableClear` is what the loop over the chains comes to. -/
theorem hashTableClear_eq_some_iff {table' : HashTable K V} :
    hashTableClear cfg table = some table' ↔ ∃ fuel disposed,
    clearLoop cfg fuel table = some (table', disposed) := by
  have emptied : hashTableClear cfg table = if table.foreachRecursionLevel ≠ 0 ∧
    table.bucketArray.any (!·.isEmpty) then none
      else some (if table.foreachRecursionLevel =
        0 then hashTableRehash cfg (table.emptied table.pendingRemoves) 5
        else table.emptied table.pendingRemoves) := rfl
  have filled : table.bucketArray.any (!·.isEmpty) = true ↔ table.pairs ≠ [] := by
    simp [HashTable.pairs, List.flatten_eq_nil_iff]
  rw [emptied]
  constructor
  · intro cleared
    split at cleared
    · cases cleared
    · next reach =>
      cases cleared
      by_cases outside : table.foreachRecursionLevel = 0
      · have room : ∀ chain ∈ table.bucketArray, chain.length < table.pairs.length + 1 :=
          fun chain mem =>
          Nat.lt_succ_of_le (List.sublist_flatten_of_mem mem).length_le
        refine ⟨table.pairs.length + 1, table.pairs, ?_⟩
        simp only [clearLoop, outside, ne_eq, not_true_eq_false, decide_false, clearChains_outside room]
        rfl
      · have none : table.pairs = [] := not_not.mp fun some => reach ⟨outside, filled.mpr some⟩
        exact ⟨1, [], by simp [clearLoop, outside, clearChains_empty (List.flatten_eq_nil_iff.mp none)]⟩
  · rintro ⟨fuel, disposed, returned⟩
    obtain ⟨⟨disposed', pending⟩, walked, same⟩ := Option.map_eq_some_iff.mp returned
    have kept : pending = table.pendingRemoves := clearChains_pending walked
    cases same
    rw [kept, if_neg]
    rintro ⟨inside, some⟩
    rw [decide_eq_true inside] at walked
    exact filled.mp some (clearChains_inside walked)

theorem emptied_pairs : (table.emptied pendRemoves).pairs = [] := by
  simp [HashTable.emptied, HashTable.pairs]

theorem rehash_emptied : (hashTableRehash cfg (table.emptied pendRemoves) 5).pairs = [] ∧
      hashTableCount (hashTableRehash cfg (table.emptied pendRemoves) 5) = 0 := by
  simp only [hashTableRehash, if_neg (by decide : ¬5 = 0)]
  split
  · exact ⟨emptied_pairs table pendRemoves, rfl⟩
  refine ⟨?_, rfl⟩
  simp only [HashTable.pairs, HashTable.emptied, List.foldl_map, List.foldl_nil]
  simp

/-- Clearing works exactly outside of every iteration, and on a table without pairs. -/
theorem hashTableClear_clears_iff (cfg : HashConfig K) (table : HashTable K V) :
    ClearsAll cfg table ↔ table.foreachRecursionLevel = 0 ∨ table.pairs = [] := by
  constructor
  · rintro ⟨_, _, _, returned, -⟩
    by_cases outside : table.foreachRecursionLevel = 0
    · exact .inl outside
    obtain ⟨⟨_, _⟩, walked, -⟩ := Option.map_eq_some_iff.mp returned
    simp only [ne_eq, outside, not_false_eq_true, decide_true] at walked
    exact .inr (clearChains_inside walked)
  intro clear
  by_cases outside : table.foreachRecursionLevel = 0
  · have room : ∀ chain ∈ table.bucketArray, chain.length < table.pairs.length + 1 := fun chain mem =>
      Nat.lt_succ_of_le (List.sublist_flatten_of_mem mem).length_le
    obtain ⟨empty, none⟩ := rehash_emptied cfg table table.pendingRemoves
    refine ⟨table.pairs.length + 1, hashTableRehash cfg (table.emptied table.pendingRemoves) 5,
      table.pairs, ?_, ?_,
      none, .refl _⟩
    · simp only [clearLoop, outside, ne_eq, not_true_eq_false, decide_false, clearChains_outside room]
      rfl
    · simpa [outside] using empty
  have empty := clear.resolve_left outside
  refine ⟨1, table.emptied table.pendingRemoves, [], ?_, ?_, rfl, ?_⟩
  · simp [clearLoop, outside, clearChains_empty (List.flatten_eq_nil_iff.mp empty)]
  · simp [outside, cleanup, HashTable.pairs, HashTable.emptied]
  · rw [empty]

/-- The table of two entries, cleared by a callback. -/
theorem hashTableClear_never_returns :
    ¬ClearsAll numberConfig { numberTable with foreachRecursionLevel := 1 } := by
  rintro ⟨_, _, _, returned, -⟩
  obtain ⟨⟨_, _⟩, walked, -⟩ := Option.map_eq_some_iff.mp returned
  exact absurd (clearChains_inside walked) (by decide +kernel)

/-! ## Searching for a value -/

/-- `asKey` is the pointer to a value, taken as a key. -/
def hashTableContainsValue (asKey : V → K) (table : HashTable K V) : Option V → Bool
  | none => false
  | some value =>
    table.bucketArray.any
      (·.any fun pair => !pair.markedForRemove && hashTableEquals cfg pair (asKey value))

variable {cfg} {table} {m : HashMap cfg V} (asKey : V → K) (valueEquals : Option V → Option V → Bool)

/-- A key of the map has a value that is equal to this one. -/
def HasValue (m : HashMap cfg V) (value : Option V) : Prop :=
  ∃ c v, m.lookup c = some v ∧ valueEquals v value = true

/-- The value is a key of the map. -/
def IsKey (m : HashMap cfg V) (value : Option V) :
    Prop := ∃ v, value = some v ∧ cfg.classOf (asKey v) ∈ m

/-- The marks and the order of the chains do not matter: the search looks a key up. -/
theorem Represents.containsValue (rep : Represents cfg table m) (value : Option V) :
    hashTableContainsValue cfg asKey table value = true ↔ IsKey asKey m value := by
  cases value with
  | none => simp [hashTableContainsValue, IsKey]
  | some value =>
    have live : cfg.classOf (asKey value) ∈ m ↔
        ∃ pair ∈ table.pairs, cfg.classOf pair.key = cfg.classOf (asKey value) ∧ pair.isLive = true := by
      rw [← Finmap.lookup_isSome, Option.isSome_iff_exists]
      simp only [rep.entries _ _]
      grind
    have named : IsKey asKey m (some value) ↔ cfg.classOf (asKey value) ∈ m := by simp [IsKey]
    rw [named, live]
    simp only [hashTableContainsValue, HashTable.pairs, List.any_eq_true,
      List.mem_flatten, Bool.and_eq_true]
    constructor
    · rintro ⟨chain, inTable, pair, inChain, unmarked, equal⟩
      exact ⟨pair, ⟨chain, inTable, inChain⟩, hashTableEquals_iff.mp equal, unmarked⟩
    · rintro ⟨pair, ⟨chain, inTable, inChain⟩, same, unmarked⟩
      exact ⟨chain, inTable, pair, inChain, unmarked, hashTableEquals_iff.mpr same⟩

/-- A table that stands for a map, also one with pairs that are marked for removal, is searched
rightly for a value that is both a key and the value of a key of the map, or neither. -/
theorem hashTableContainsValue_iff (represents : Represents cfg table m) (value : Option V) :
    (hashTableContainsValue cfg asKey table value = true ↔ HasValue valueEquals m value) ↔
      IsKey asKey m value ∧ HasValue valueEquals m value ∨
        ¬IsKey asKey m value ∧ ¬HasValue valueEquals m value := by
  rw [represents.containsValue asKey value]
  exact iff_iff_and_or_not_and_not

theorem HasValue.exists_pair (rep : Represents cfg table m) {value : Option V}
    (has : HasValue valueEquals m value) :
    ∃ pair ∈ table.pairs, pair.isLive = true ∧ valueEquals pair.value value = true := by
  obtain ⟨c, v, lookup, equal⟩ := has
  obtain ⟨pair, member, -, live, rfl⟩ := (rep.entries c v).mp lookup
  exact ⟨pair, member, live, equal⟩

/-- In an iteration over 1 ↦ 10 and 2 ↦ 20 the key 2 is removed; its value is not found any more. -/
theorem hashTableContainsValue_marked : ∃ table m, Represents numberConfig table m ∧
    (∃ pair ∈ table.pairs, pair.markedForRemove = true) ∧
    (hashTableContainsValue numberConfig id table (some 20) = true ↔ HasValue (· == ·) m (some 20)) := by
  have iterated : Represents numberConfig { numberTable with foreachRecursionLevel := 1 } numberMap :=
    have ⟨length, positive, placed, distinct, entries, elements, pending⟩ := numberTable_represents.1
    ⟨length, positive, placed, distinct, entries, elements, pending⟩
  obtain ⟨marked, -⟩ := iterated.remove_mark (by decide) 2 (by decide +kernel)
  refine ⟨_, _, marked,
    by decide +kernel, (hashTableContainsValue_iff id (· == ·) marked (some 20)).mpr (.inr ⟨?_, ?_⟩)⟩
  · rw [← marked.containsValue id]
    decide +kernel
  · intro has
    have pair := has.exists_pair (· == ·) marked
    revert pair
    decide +kernel

/-- The entries 1 ↦ 10 and 2 ↦ 20 contain the value 10, which is not found, and not the value 1,
which is. -/
theorem hashTableContainsValue_searches_keys : Represents numberConfig numberTable numberMap ∧
    hashTableContainsValue numberConfig id numberTable (some 10) = false ∧
    HasValue (· == ·) numberMap (some 10) ∧
      hashTableContainsValue numberConfig id numberTable (some 1) = true ∧
      ¬HasValue (· == ·) numberMap (some 1) := by
  refine ⟨numberTable_represents.1, by decide +kernel, ?_, by decide +kernel, fun has => ?_⟩
  · refine ⟨numberConfig.classOf 1, some 10, ?_, rfl⟩
    rw [numberTable_represents.1.entries]
    exact ⟨⟨1, some 10, false⟩, by decide +kernel, rfl, rfl, rfl⟩
  · have pair := has.exists_pair (· == ·) numberTable_represents.1
    revert pair
    decide +kernel

end KvmServer.Winpr
