import KvmServer.Lib.Buckets
import KvmServer.Lib.Refinement
import KvmServer.Winpr.HashTable

/-! # The hash table as a finite map

The abstract state is a finite map from the classes of the key equality to values.  The pairs of a table
count up to their order, which rehashing changes. -/

namespace KvmServer.Winpr
open Lib List
variable {K V : Type} {cfg : HashConfig K}

/-! ## Classes of keys -/

def HashConfig.setoid (cfg : HashConfig K) : Setoid K :=
    ⟨fun a b => cfg.fnObjectEquals a b = true, cfg.equivalence⟩

abbrev HashConfig.Class (cfg : HashConfig K) : Type := Quotient cfg.setoid

def HashConfig.classOf (cfg : HashConfig K) (key : K) : cfg.Class := Quotient.mk cfg.setoid key

instance (cfg : HashConfig K) : DecidableEq cfg.Class :=
  @Quotient.decidableEq K cfg.setoid fun _ _ => inferInstanceAs (Decidable (_ = true))

abbrev HashMap (cfg : HashConfig K) (V : Type) : Type := Finmap fun _ : cfg.Class => Option V

theorem classOf_eq_iff {a b : K} : cfg.classOf a = cfg.classOf b ↔ cfg.fnObjectEquals a b = true :=
  @Quotient.eq K cfg.setoid a b

/-! ## Pairs -/

def HashTable.pairs (table : HashTable K V) : List (KeyValuePair K V) := table.bucketArray.flatten

def KeyValuePair.isLive (pair : KeyValuePair K V) : Bool := !pair.markedForRemove

theorem KeyValuePair.isLive_iff {pair : KeyValuePair K V} :
    pair.isLive = true ↔ pair.markedForRemove = false := by
  rw [KeyValuePair.isLive, Bool.not_eq_true']

theorem countP_marked_eq_zero {pairs : List (KeyValuePair K V)}
    (live : ∀ pair ∈ pairs, pair.isLive = true) :
    pairs.countP KeyValuePair.markedForRemove = 0 := by
  rw [countP_eq_zero]
  intro pair mem
  rw [KeyValuePair.isLive_iff.mp (live pair mem)]
  exact Bool.false_ne_true

def Free (cfg : HashConfig K) (c : cfg.Class) (pairs : List (KeyValuePair K V)) : Prop :=
  ∀ pair ∈ pairs, cfg.classOf pair.key ≠ c

def Entries (cfg : HashConfig K) (pairs : List (KeyValuePair K V)) (m : HashMap cfg V) : Prop :=
  ∀ c v, m.lookup c = some v ↔ ∃ pair ∈ pairs, cfg.classOf pair.key = c ∧
    pair.isLive = true ∧ pair.value = v

theorem Entries.perm {pairs pairs' : List (KeyValuePair K V)} {m : HashMap cfg V}
    (entries : Entries cfg pairs m) (perm : pairs'.Perm pairs) : Entries cfg pairs' m := by
  intro c v
  simp only [entries c v, perm.mem_iff]

theorem Entries.nil : Entries cfg ([] : List (KeyValuePair K V)) ∅ := by
  intro c v
  constructor
  · intro impossible
    cases impossible
  rintro ⟨_, impossible, -⟩
  cases impossible

section
variable {pair : KeyValuePair K V} {rest : List (KeyValuePair K V)} {m : HashMap cfg V}

section
variable (ents : Entries cfg rest m)
include ents

theorem Entries.lookup_eq_none {c : cfg.Class} (free : Free cfg c rest) : m.lookup c = none := by
  cases value : m.lookup c with
  | none => rfl
  | some v =>
    obtain ⟨pair, mem, same, -⟩ := (ents c v).mp value
    exact absurd same (free pair mem)

theorem Entries.cons_live (free : Free cfg (cfg.classOf pair.key) rest)
    (live : pair.isLive = true) :
    Entries cfg (pair :: rest) (m.insert (cfg.classOf pair.key) pair.value) := by
  intro c v
  by_cases same : c = cfg.classOf pair.key
  · subst same
    rw [Finmap.lookup_insert, Option.some_inj]
    constructor
    · intro value
      exact ⟨pair, mem_cons_self, rfl, live, value⟩
    rintro ⟨other, mem, class_eq, -, value⟩
    cases mem_cons.mp mem with
    | inl self => rw [← value, self]
    | inr old => exact absurd class_eq (free other old)
  rw [Finmap.lookup_insert_of_ne _ same, ents c v]
  constructor
  · rintro ⟨other, mem, facts⟩
    exact ⟨other, mem_cons_of_mem _ mem, facts⟩
  rintro ⟨other, mem, class_eq, facts⟩
  cases mem_cons.mp mem with
  | inl self => exact absurd (self ▸ class_eq).symm same
  | inr old => exact ⟨other, old, class_eq, facts⟩

theorem Entries.cons_marked (mark : pair.isLive = false) : Entries cfg (pair :: rest) m := by
  intro c v
  rw [ents c v]
  constructor
  · rintro ⟨other, mem, facts⟩
    exact ⟨other, mem_cons_of_mem _ mem, facts⟩
  rintro ⟨other, mem, class_eq, live, value⟩
  cases mem_cons.mp mem with
  | inl self =>
    rw [self, mark] at live
    cases live
  | inr old => exact ⟨other, old, class_eq, live, value⟩

end

theorem Entries.tail (entries : Entries cfg (pair :: rest) m)
    (free : Free cfg (cfg.classOf pair.key) rest) :
    Entries cfg rest (m.erase (cfg.classOf pair.key)) := by
  intro c v
  by_cases same : c = cfg.classOf pair.key
  · subst same
    rw [Finmap.lookup_erase]
    constructor
    · intro impossible
      cases impossible
    rintro ⟨other, mem, class_eq, -⟩
    exact absurd class_eq (free other mem)
  rw [Finmap.lookup_erase_ne same, entries c v]
  constructor
  · rintro ⟨other, mem, class_eq, facts⟩
    cases mem_cons.mp mem with
    | inl self => exact absurd (self ▸ class_eq).symm same
    | inr old => exact ⟨other, old, class_eq, facts⟩
  rintro ⟨other, mem, facts⟩
  exact ⟨other, mem_cons_of_mem _ mem, facts⟩

end

/-! ## The invariant -/

/-- The table stands for the map `m`; some of its pairs may be marked for removal. -/
structure Represents (cfg : HashConfig K) (table : HashTable K V) (m : HashMap cfg V) : Prop where
  length : table.bucketArray.length = table.numOfBuckets
  positive : 0 < table.numOfBuckets
  placed : Placed (fun pair => bucketOf cfg table.numOfBuckets pair.key) table.bucketArray
  distinct : (table.pairs.map fun pair => cfg.classOf pair.key).Nodup
  entries : Entries cfg table.pairs m
  elements : table.numOfElements = table.pairs.countP KeyValuePair.isLive
  pending : table.pendingRemoves = table.pairs.countP KeyValuePair.markedForRemove % 2 ^ 32

/-- Outside of every `HashTable_Foreach`, with nothing left to remove. -/
structure Settled (table : HashTable K V) : Prop where
  level : table.foreachRecursionLevel = 0
  unmarked : ∀ pair ∈ table.pairs, pair.isLive = true

section
variable {table : HashTable K V} {m : HashMap cfg V} {key : K} {pair : KeyValuePair K V} (n : Nat)

theorem hashTableEquals_iff :
    hashTableEquals cfg pair key = true ↔ cfg.classOf pair.key = cfg.classOf key := by
  rw [hashTableEquals, ← classOf_eq_iff, eq_comm]

theorem bucketOf_eq {n : Nat} {a b : K} (same : cfg.classOf a = cfg.classOf b) :
    bucketOf cfg n a = bucketOf cfg n b := by
  rw [bucketOf, bucketOf, cfg.compatible a b (classOf_eq_iff.mp same)]

theorem replaceF_middle {α : Type} {f : α → Option α} {pre back : List α} {a b : α}
    (skip : ∀ x ∈ pre, f x = none) (hit : f a = some b) :
    (pre ++ a :: back).replaceF f = pre ++ b :: back := by
  induction pre with
  | nil => exact replaceF_cons_of_some _ hit
  | cons x pre ih =>
    rw [cons_append, replaceF_cons_of_none _ (skip x mem_cons_self),
      ih fun y mem => skip y (mem_cons_of_mem _ mem), cons_append]

theorem insert_erase (m : HashMap cfg V) (c : cfg.Class) (v : Option V) :
    (m.erase c).insert c v = m.insert c v := by
  apply Finmap.ext_lookup
  intro c'
  by_cases same : c' = c
  · rw [same, Finmap.lookup_insert, Finmap.lookup_insert]
  · rw [Finmap.lookup_insert_of_ne _ same, Finmap.lookup_insert_of_ne _ same,
      Finmap.lookup_erase_ne same]

theorem le_nextProbablePrime : n ≤ nextProbablePrime n := by
  fun_induction nextProbablePrime n with
  | case1 n prime => exact le_refl _
  | case2 n notPrime ih => omega

theorem idealNumOfBuckets_pos (cfg : HashConfig K) (table : HashTable K V) :
    0 < hashTableCalculateIdealNumOfBuckets cfg table := by
  refine lt_of_lt_of_le ?_ (le_nextProbablePrime _)
  split
  · decide
  · exact lt_of_lt_of_le Nat.zero_lt_one Nat.right_le_or

theorem wrapDec_mod : wrapDec 32 ((n + 1) % 2 ^ 32) = n % 2 ^ 32 := by
  unfold wrapDec
  split <;> omega

theorem erase_of_not_mem {c : cfg.Class} (absent : c ∉ m) : m.erase c = m := by
  apply Finmap.ext_lookup
  intro c'
  by_cases same : c' = c
  · rw [same, Finmap.lookup_erase, Finmap.lookup_eq_none.mpr absent]
  · rw [Finmap.lookup_erase_ne same]

variable (rep : Represents cfg table m)
include rep

theorem Represents.bucketOf_lt (key : K) :
    bucketOf cfg table.numOfBuckets key < table.bucketArray.length := by
  rw [rep.length]
  exact Nat.mod_lt _ rep.positive

theorem Represents.free_of_get_none (absent : hashTableGet cfg table key = none) :
    Free cfg (cfg.classOf key) table.pairs := by
  intro pair mem same
  have inChain := rep.placed.mem_flatten_iff.mp mem
  rw [bucketOf_eq same] at inChain
  exact find?_eq_none.mp absent pair inChain (hashTableEquals_iff.mpr same)

structure Found (cfg : HashConfig K) (table : HashTable K V) (key : K) (pair : KeyValuePair K V)
    (rest : List (KeyValuePair K V)) : Prop where
  same : cfg.classOf pair.key = cfg.classOf key
  perm : table.pairs.Perm (pair :: rest)
  free : Free cfg (cfg.classOf key) rest
  overwritten : ∀ pair', (setPair cfg table key pair').flatten.Perm (pair' :: rest)
  unlinked : (table.bucketArray.modify (bucketOf cfg table.numOfBuckets key)
    (·.eraseP (hashTableEquals cfg · key))).flatten.Perm rest

theorem Represents.found (get : hashTableGet cfg table key = some pair) : ∃ rest,
    Found cfg table key pair rest := by
  obtain ⟨hit, pre, back, chain, skipped⟩ := find?_eq_some_iff_append.mp get
  obtain ⟨before, after, all, modified⟩ := exists_bucket table.bucketArray (rep.bucketOf_lt key)
  have same := hashTableEquals_iff.mp hit
  -- the pairs around the one that is found
  have around : ∀ x, (before ++ (pre ++ (x ++ back)) :: after).flatten =
      (before.flatten ++ pre) ++ (x ++ (back ++ after.flatten)) := by
    intro x
    simp only [flatten_append, flatten_cons, append_assoc]
  have perm : table.pairs.Perm (pair :: ((before.flatten ++ pre) ++ (back ++ after.flatten))) := by
    rw [HashTable.pairs, all, chain]
    exact (around [pair]).symm ▸ perm_middle
  have distinct := (perm.map fun pair => cfg.classOf pair.key).nodup_iff.mp rep.distinct
  have missed : ∀ x ∈ pre, ¬hashTableEquals cfg x key = true := fun x mem eq => by
    have skip := skipped x mem
    rw [eq] at skip
    cases skip
  refine ⟨(before.flatten ++ pre) ++ (back ++ after.flatten), same, perm, ?_, fun pair' => ?_, ?_⟩
  · intro other mem otherSame
    apply (nodup_cons.mp distinct).1
    exact mem_map.mpr ⟨other, mem, otherSame.trans same.symm⟩
  · have reply :
      (pre ++ pair :: back).replaceF (fun old => if hashTableEquals cfg old key then some pair'
        else none) = pre ++ pair' :: back :=
      replaceF_middle (fun x mem => if_neg (missed x mem)) (if_pos hit)
    rw [setPair, modified, chain, reply]
    exact (around [pair']).symm ▸ perm_middle
  have erased : (pre ++ pair :: back).eraseP (hashTableEquals cfg · key) = pre ++ back := by
    rw [eraseP_append_right _ missed, eraseP_cons_of_pos (p := (hashTableEquals cfg · key)) hit]
  rw [modified, chain, erased]
  exact (around []).symm ▸ .rfl

theorem Represents.get_eq_some_iff :
    hashTableGet cfg table key = some pair ↔ pair ∈ table.pairs ∧
    cfg.classOf pair.key = cfg.classOf key := by
  constructor
  · intro get
    obtain ⟨rest, found⟩ := rep.found get
    exact ⟨found.perm.mem_iff.mpr mem_cons_self, found.same⟩
  rintro ⟨mem, same⟩
  cases get : hashTableGet cfg table key with
  | none => exact absurd same (rep.free_of_get_none get pair mem)
  | some _ =>
    obtain ⟨rest, found⟩ := rep.found get
    cases mem_cons.mp (found.perm.mem_iff.mp mem) with
    | inl self => rw [self]
    | inr inRest => exact absurd same (found.free pair inRest)

theorem Represents.setPair_placed (same : cfg.classOf pair.key = cfg.classOf key) :
    Placed (fun pair => bucketOf cfg table.numOfBuckets pair.key) (setPair cfg table key pair) := by
  refine rep.placed.modify (rep.bucketOf_lt key) fun a mem => ?_
  obtain unchanged | ⟨old, _, _, _, -, hit, chain, reply⟩ := exists_or_eq_self_of_replaceF
    (fun old => if hashTableEquals cfg old key then some pair else none)
    (table.bucketArray.getD (bucketOf cfg table.numOfBuckets key) [])
  · rw [unchanged] at mem
    exact rep.placed _ a mem
  rw [reply] at mem
  obtain ⟨-, isNew⟩ := Option.ite_none_right_eq_some.mp hit
  cases mem_append.mp mem with
  | inl inPre => exact rep.placed _ a (chain ▸ mem_append_left _ inPre)
  | inr atOrPast =>
    cases mem_cons.mp atOrPast with
    | inl self => rw [self, ← Option.some_inj.mp isNew, bucketOf_eq same]
    | inr inBack =>
      exact rep.placed _ a (chain ▸ mem_append_right _ (mem_cons_of_mem _ inBack))

theorem Represents.unlink_placed (key : K) :
    Placed (fun pair => bucketOf cfg table.numOfBuckets pair.key) (table.bucketArray.modify
      (bucketOf cfg table.numOfBuckets key) (·.eraseP (hashTableEquals cfg · key))) :=
  rep.placed.modify (rep.bucketOf_lt key) fun a mem =>
    rep.placed _ a (mem_of_mem_eraseP mem)

theorem Represents.change {table' : HashTable K V} {m' : HashMap cfg V}
    {pairs : List (KeyValuePair K V)} (buckets : table'.numOfBuckets = table.numOfBuckets)
    (length : table'.bucketArray.length = table.bucketArray.length)
    (placed : Placed (fun pair => bucketOf cfg table.numOfBuckets pair.key) table'.bucketArray)
    (perm : table'.pairs.Perm pairs) (distinct : (pairs.map fun pair => cfg.classOf pair.key).Nodup)
    (entries : Entries cfg pairs m') (elements : table'.numOfElements = pairs.countP KeyValuePair.isLive)
    (pending : table'.pendingRemoves = pairs.countP KeyValuePair.markedForRemove % 2 ^ 32) :
    Represents cfg table' m' where
  length := by rw [length, buckets, rep.length]
  positive := buckets ▸ rep.positive
  placed := buckets ▸ placed
  distinct := (perm.map _).nodup_iff.mpr distinct
  entries := entries.perm perm
  elements := elements.trans (perm.countP_eq _).symm
  pending := by rw [pending, perm.countP_eq]

section
variable {rest : List (KeyValuePair K V)} {pair' : KeyValuePair K V}

section
variable (got : Found cfg table key pair rest)
include got

theorem Found.entries_rest : Entries cfg rest (m.erase (cfg.classOf key)) := by
  rw [← got.same]
  exact (rep.entries.perm got.perm.symm).tail (got.same ▸ got.free)

theorem Found.distinct (same : cfg.classOf pair'.key = cfg.classOf key) :
    ((pair' :: rest).map fun pair => cfg.classOf pair.key).Nodup := by
  have nodup := (got.perm.map fun pair => cfg.classOf pair.key).nodup_iff.mp rep.distinct
  rw [map_cons] at nodup ⊢
  rwa [same, ← got.same]

theorem Found.counts_live (unmarked : pair.markedForRemove = false) :
    table.numOfElements = rest.countP KeyValuePair.isLive + 1 ∧
      table.pendingRemoves = rest.countP KeyValuePair.markedForRemove % 2 ^ 32 := by
  have live : pair.isLive = true := KeyValuePair.isLive_iff.mpr unmarked
  constructor
  · rw [rep.elements, got.perm.countP_eq, countP_cons_of_pos live]
  · rw [rep.pending, got.perm.countP_eq, countP_cons_of_neg (by rw [unmarked]; decide)]

theorem Found.counts_marked (mark : pair.markedForRemove = true) :
    table.numOfElements = rest.countP KeyValuePair.isLive ∧
      table.pendingRemoves = (rest.countP KeyValuePair.markedForRemove + 1) % 2 ^ 32 := by
  have notLive : ¬pair.isLive = true := by rw [KeyValuePair.isLive, mark]; decide
  constructor
  · rw [rep.elements, got.perm.countP_eq, countP_cons_of_neg notLive]
  · rw [rep.pending, got.perm.countP_eq, countP_cons_of_pos mark]

theorem Found.entries_live (same : cfg.classOf pair'.key = cfg.classOf key)
    (live : pair'.isLive = true) :
    Entries cfg (pair' :: rest) (m.insert (cfg.classOf key) pair'.value) := by
  rw [← insert_erase, ← same]
  exact (same.symm ▸ got.entries_rest rep : Entries cfg rest (m.erase (cfg.classOf pair'.key))).cons_live
    (same ▸ got.free) live

end

end

theorem Represents.rehash (numOfBuckets : Nat) :
    Represents cfg (hashTableRehash cfg table numOfBuckets) m ∧
      (hashTableRehash cfg table numOfBuckets).pairs.Perm table.pairs ∧
      (hashTableRehash cfg table numOfBuckets).foreachRecursionLevel = table.foreachRecursionLevel := by
  unfold hashTableRehash
  have pos :
      0 < (if numOfBuckets = 0 then hashTableCalculateIdealNumOfBuckets cfg table else numOfBuckets) := by
    split
    · exact idealNumOfBuckets_pos cfg table
    · omega
  generalize (if numOfBuckets = 0 then hashTableCalculateIdealNumOfBuckets cfg table
    else numOfBuckets) = n at pos
  by_cases unchanged : n = table.numOfBuckets
  · rw [if_pos unchanged]
    exact ⟨rep, .rfl, rfl⟩
  rw [if_neg unchanged, ← foldl_flatten]
  obtain ⟨len, placed, perm⟩ := @foldl_push _ (fun pair : KeyValuePair K V => bucketOf cfg n pair.key)
    (.replicate n []) (fun pair => by rw [length_replicate]; exact Nat.mod_lt _ pos)
    (.replicate _ n) table.bucketArray.flatten
  rw [length_replicate] at len
  rw [flatten_replicate_nil, append_nil] at perm
  exact ⟨⟨len, pos, placed, (perm.map _).nodup_iff.mpr rep.distinct,
    rep.entries.perm perm, rep.elements.trans (perm.countP_eq _).symm,
    rep.pending.trans (congrArg (· % 2 ^ 32) (perm.countP_eq _).symm)⟩, perm, rfl⟩

/-! ## The operations -/

/-- An insertion does to the table what it does to the map. -/
theorem Represents.insert (key : K) (value : V) :
    Represents cfg (hashTableInsert cfg table (some key) (some value)).1
    (m.insert (cfg.classOf key) (some value)) ∧
      (hashTableInsert cfg table (some key) (some value)).2 = true ∧
      (hashTableInsert cfg table (some key) (some value)).1.foreachRecursionLevel =
      table.foreachRecursionLevel ∧
      ∀ pair ∈ (hashTableInsert cfg table (some key) (some value)).1.pairs, pair ∈ table.pairs ∨
      pair.isLive = true := by
  unfold hashTableInsert
  dsimp only
  cases get : hashTableGet cfg table key with
  | some pair =>
    obtain ⟨_, found⟩ := rep.found get
    have entries := @Found.entries_live _ _ _ _ _ _ _ rep _ ⟨key, some value, false⟩ found rfl rfl
    have kept : ∀ other ∈ (setPair cfg table key ⟨key, some value, false⟩).flatten,
        other ∈ table.pairs ∨ other.isLive = true := by
      intro other mem
      cases mem_cons.mp ((found.overwritten _).mem_iff.mp mem) with
      | inl self => exact .inr (self ▸ rfl)
      | inr inRest => exact .inl (found.perm.mem_iff.mpr (mem_cons_of_mem _ inRest))
    dsimp only
    cases mark : pair.markedForRemove with
    | true =>
      obtain ⟨elems, pending⟩ := found.counts_marked rep mark
      rw [if_pos rfl]
      refine ⟨rep.change rfl (length_modify _ _ _) (rep.setPair_placed rfl)
        (found.overwritten _) (found.distinct rep rfl) entries ?_ ?_, rfl, rfl, kept⟩
      · rw [countP_cons_of_pos rfl, elems]
      · rw [countP_cons_of_neg Bool.false_ne_true, ← wrapDec_mod, ← pending]
    | false =>
      obtain ⟨elems, pending⟩ := found.counts_live rep mark
      rw [if_neg (by decide)]
      refine ⟨rep.change rfl (length_modify _ _ _) (rep.setPair_placed rfl)
        (found.overwritten _) (found.distinct rep rfl) entries ?_ ?_, rfl, rfl, kept⟩
      · rw [countP_cons_of_pos rfl, elems]
      · rw [countP_cons_of_neg Bool.false_ne_true, ← pending]
  | none =>
    have free := rep.free_of_get_none get
    have perm := @flatten_push _ (fun pair => bucketOf cfg table.numOfBuckets pair.key) table.bucketArray
      ⟨key, some value, false⟩ (rep.bucketOf_lt key)
    have kept :
      ∀ other ∈ (relink cfg table.numOfBuckets table.bucketArray ⟨key, some value, false⟩).flatten,
        other ∈ table.pairs ∨ other.isLive = true := by
      intro other mem
      cases mem_cons.mp (perm.mem_iff.mp mem) with
      | inl self => exact .inr (self ▸ rfl)
      | inr old => exact .inl old
    have inserted : Represents cfg { table with
          bucketArray := relink cfg table.numOfBuckets table.bucketArray ⟨key, some value, false⟩
          numOfElements := table.numOfElements + 1 }
        (m.insert (cfg.classOf key) (some value)) := by
      refine rep.change rfl (length_modify _ _ _) (rep.placed.push (rep.bucketOf_lt key)) perm ?_
        (@Entries.cons_live _ _ _ ⟨key, some value, false⟩ _ _ rep.entries free rfl) ?_ ?_
      · refine nodup_cons.mpr ⟨fun mem => ?_, rep.distinct⟩
        obtain ⟨other, inTable, same⟩ := mem_map.mp mem
        exact free other inTable same
      · rw [rep.elements]
        exact (countP_cons_of_pos rfl).symm
      rw [rep.pending]
      exact congrArg (· % 2 ^ 32) (countP_cons_of_neg Bool.false_ne_true).symm
    dsimp only
    split
    · obtain ⟨rehashed, relinked, level⟩ := inserted.rehash 0
      exact ⟨rehashed, rfl, level, fun other mem => kept other (relinked.mem_iff.mp mem)⟩
    · exact ⟨inserted, rfl, rfl, kept⟩

theorem Represents.lookup (key : K) : m.lookup (cfg.classOf key) =
      match hashTableGet cfg table key with
      | some pair => if pair.markedForRemove then none else some pair.value
      | none => none := by
  cases get : hashTableGet cfg table key with
  | none => exact rep.entries.lookup_eq_none (rep.free_of_get_none get)
  | some pair =>
    obtain ⟨_, found⟩ := rep.found get
    have entries := rep.entries.perm found.perm.symm
    dsimp only
    cases mark : pair.markedForRemove with
    | false =>
      rw [if_neg Bool.false_ne_true, entries]
      exact ⟨pair, mem_cons_self, found.same, KeyValuePair.isLive_iff.mpr mark, rfl⟩
    | true =>
      cases value : m.lookup (cfg.classOf key) with
      | none => rfl
      | some v =>
        obtain ⟨other, mem, same, live, -⟩ := (entries _ _).mp value
        cases mem_cons.mp mem with
        | inl self =>
          rw [self, KeyValuePair.isLive, mark] at live
          cases live
        | inr inRest => exact absurd same (found.free other inRest)

theorem Represents.mem_iff (key : K) :
    cfg.classOf key ∈ m ↔ ∃ pair, hashTableGet cfg table key = some pair ∧
    pair.markedForRemove = false := by
  rw [← Finmap.lookup_isSome, rep.lookup key]
  cases get : hashTableGet cfg table key with
  | none => simp
  | some pair => cases mark : pair.markedForRemove <;> simp [mark]

theorem Represents.not_mem_of_get_none (absent : hashTableGet cfg table key = none) :
    cfg.classOf key ∉ m := by
  rw [rep.mem_iff, absent]
  rintro ⟨_, impossible, -⟩
  cases impossible

theorem Represents.getItemValue (key : K) :
    hashTableGetItemValue cfg table (some key) = (m.lookup (cfg.classOf key)).join := by
  rw [rep.lookup, hashTableGetItemValue]
  cases get : hashTableGet cfg table key with
  | none => rfl
  | some _ =>
    dsimp only
    split <;> rfl

theorem Represents.containsKey (key : K) :
    hashTableContainsKey cfg table (some key) = decide (cfg.classOf key ∈ m) := by
  rw [hashTableContainsKey, Bool.eq_iff_iff, decide_eq_true_iff, rep.mem_iff]
  cases get : hashTableGet cfg table key with
  | none => simp
  | some _ => simp

/-- A removal does to a settled table what it does to the map. -/
theorem Represents.remove (done : Settled table) (key : K) :
    Represents cfg (hashTableRemove cfg table (some key)).1 (m.erase (cfg.classOf key)) ∧
      (hashTableRemove cfg table (some key)).2 = decide (cfg.classOf key ∈ m) ∧
      Settled (hashTableRemove cfg table (some key)).1 := by
  have mem_iff := rep.mem_iff key
  unfold hashTableRemove
  dsimp only
  cases get : hashTableGet cfg table key with
  | none =>
    have absent := rep.not_mem_of_get_none get
    rw [erase_of_not_mem absent, decide_eq_false absent]
    exact ⟨rep, rfl, done⟩
  | some pair =>
    obtain ⟨_, found⟩ := rep.found get
    have live : pair.isLive = true := done.unmarked pair (found.perm.mem_iff.mpr mem_cons_self)
    have unmarked := KeyValuePair.isLive_iff.mp live
    have present : cfg.classOf key ∈ m := mem_iff.mpr ⟨pair, get, unmarked⟩
    obtain ⟨elems, pending⟩ := found.counts_live rep unmarked
    have removed : Represents cfg { table with
          bucketArray :=
            table.bucketArray.modify (bucketOf cfg table.numOfBuckets key) (·.eraseP (hashTableEquals cfg · key))
          numOfElements := wrapDec 64 table.numOfElements }
        (m.erase (cfg.classOf key)) := by
      refine rep.change rfl (length_modify _ _ _) (rep.unlink_placed key) found.unlinked
        (nodup_cons.mp (found.distinct rep found.same)).2 (found.entries_rest rep) ?_ pending
      rw [elems]
      rfl
    have done' : Settled { table with
          bucketArray :=
            table.bucketArray.modify (bucketOf cfg table.numOfBuckets key) (·.eraseP (hashTableEquals cfg · key))
          numOfElements := wrapDec 64 table.numOfElements } :=
      ⟨done.level, fun other mem => done.unmarked other
        (found.perm.mem_iff.mpr (mem_cons_of_mem _ (found.unlinked.mem_iff.mp mem)))⟩
    dsimp only
    rw [if_neg (by rw [done.level]; decide), decide_eq_true present]
    split
    · obtain ⟨rehashed, perm, level⟩ := removed.rehash 0
      exact ⟨rehashed, rfl, level.trans done.level, fun other mem =>
        done'.unmarked other (perm.mem_iff.mp mem)⟩
    · exact ⟨removed, rfl, done'⟩

theorem Represents.remove_mark (inside : table.foreachRecursionLevel ≠ 0)
    (key : K) (once : ∀ pair ∈ hashTableGet cfg table key, pair.markedForRemove = false) :
    Represents cfg (hashTableRemove cfg table (some key)).1 (m.erase (cfg.classOf key)) ∧
      (hashTableRemove cfg table (some key)).1.foreachRecursionLevel = table.foreachRecursionLevel ∧
      (hashTableRemove cfg table (some key)).1.pairs.countP KeyValuePair.markedForRemove ≤
        table.pairs.countP KeyValuePair.markedForRemove + 1 := by
  unfold hashTableRemove
  dsimp only
  cases get : hashTableGet cfg table key with
  | none =>
    have absent := rep.not_mem_of_get_none get
    rw [erase_of_not_mem absent]
    exact ⟨rep, rfl, Nat.le_succ _⟩
  | some pair =>
    obtain ⟨_, found⟩ := rep.found get
    have unmarked := once pair get
    obtain ⟨elems, pending⟩ := found.counts_live rep unmarked
    dsimp only
    rw [if_pos inside]
    refine ⟨rep.change rfl (length_modify _ _ _) (rep.setPair_placed found.same)
      (found.overwritten _) (found.distinct rep found.same)
      ((found.entries_rest rep).cons_marked rfl) ?_ ?_, rfl, ?_⟩
    · rw [countP_cons_of_neg Bool.false_ne_true, elems]
      rfl
    · rw [countP_cons_of_pos rfl, pending, Nat.mod_add_mod]
    have count :=
      (found.overwritten { pair with markedForRemove := true }).countP_eq KeyValuePair.markedForRemove
    rw [countP_cons_of_pos rfl] at count
    rw [found.perm.countP_eq, countP_cons_of_neg (by rw [unmarked]; exact Bool.false_ne_true)]
    exact le_of_eq count

theorem Settled.unmarked_of_get (done : Settled table) (get : hashTableGet cfg table key = some pair) :
    pair.markedForRemove = false := by
  obtain ⟨_, found⟩ := rep.found get
  exact KeyValuePair.isLive_iff.mp (done.unmarked pair (found.perm.mem_iff.mpr mem_cons_self))

theorem Represents.setItemValue (done : Settled table) (key : K) (value : Option V) :
    Represents cfg (hashTableSetItemValue cfg table (some key) value).1
        (if cfg.classOf key ∈ m then m.insert (cfg.classOf key) value else m) ∧
      (hashTableSetItemValue cfg table (some key) value).2 = decide (cfg.classOf key ∈ m) ∧
      Settled (hashTableSetItemValue cfg table (some key) value).1 := by
  unfold hashTableSetItemValue
  dsimp only
  cases get : hashTableGet cfg table key with
  | none =>
    have absent := rep.not_mem_of_get_none get
    rw [if_neg absent, decide_eq_false absent]
    exact ⟨rep, rfl, done⟩
  | some pair =>
    have unmarked := done.unmarked_of_get rep get
    have present : cfg.classOf key ∈ m := (rep.mem_iff key).mpr ⟨pair, get, unmarked⟩
    obtain ⟨_, found⟩ := rep.found get
    have live : (⟨pair.key, value, pair.markedForRemove⟩ : KeyValuePair K V).isLive = true :=
      KeyValuePair.isLive_iff.mpr unmarked
    obtain ⟨elems, pending⟩ := found.counts_live rep unmarked
    dsimp only
    rw [if_pos present, decide_eq_true present, unmarked, if_neg Bool.false_ne_true, ← unmarked]
    refine ⟨rep.change rfl (length_modify _ _ _) (rep.setPair_placed found.same)
      (found.overwritten _) (found.distinct rep found.same)
      (found.entries_live rep found.same live) ?_ ?_, rfl, done.level, fun other mem => ?_⟩
    · rw [countP_cons_of_pos live, elems]
    · rw [countP_cons_of_neg (by rw [unmarked]; exact Bool.false_ne_true), pending]
    · cases mem_cons.mp ((found.overwritten _).mem_iff.mp mem) with
      | inl self => rw [self, live]
      | inr inRest => exact done.unmarked other (found.perm.mem_iff.mpr (mem_cons_of_mem _ inRest))

theorem Represents.keys_val :
    m.keys.val =
    ((table.pairs.filter KeyValuePair.isLive).map fun pair => cfg.classOf pair.key : List cfg.Class) := by
  have nodup : ((table.pairs.filter KeyValuePair.isLive).map fun pair => cfg.classOf pair.key).Nodup :=
    rep.distinct.sublist (filter_sublist.map _)
  refine (Multiset.Nodup.ext m.keys.nodup (Multiset.coe_nodup.mpr nodup)).mpr fun c => ?_
  rw [Finset.mem_val, Finmap.mem_keys, Finmap.mem_iff, Multiset.mem_coe, mem_map]
  constructor
  · rintro ⟨v, value⟩
    obtain ⟨pair, mem, same, live, -⟩ := (rep.entries c v).mp value
    exact ⟨pair, mem_filter.mpr ⟨mem, live⟩, same⟩
  rintro ⟨pair, mem, same⟩
  obtain ⟨inTable, live⟩ := mem_filter.mp mem
  exact ⟨pair.value, (rep.entries c _).mpr ⟨pair, inTable, same, live, rfl⟩⟩

theorem Represents.count : hashTableCount table = m.keys.card := by
  rw [hashTableCount, rep.elements, Finset.card_def, rep.keys_val, Multiset.coe_card,
    length_map, countP_eq_length_filter]

theorem Represents.getKeys : ∃ keys, hashTableGetKeys table = some (m.keys.card, keys) ∧
      (keys.map (Option.map cfg.classOf) : List (Option cfg.Class)) = m.keys.val.map some := by
  have count : table.numOfElements = m.keys.card := rep.count
  have live : m.keys.card = (table.pairs.filter KeyValuePair.isLive).length := by
    rw [← count, rep.elements, countP_eq_length_filter]
  unfold hashTableGetKeys
  dsimp only
  rw [count]
  split
  next =>
    have empty : m.keys.card = 0 := by omega
    rw [empty, Finset.card_eq_zero.mp empty]
    exact ⟨[], rfl, rfl⟩
  next some =>
    have filtered : table.bucketArray.flatten.filter (fun pair => !pair.markedForRemove) =
        table.pairs.filter KeyValuePair.isLive := rfl
    rw [filtered, if_pos (le_of_eq live.symm), live, Nat.sub_self, replicate_zero, append_nil]
    refine ⟨_, rfl, ?_⟩
    rw [rep.keys_val, Multiset.map_coe, map_map, map_map]
    rfl

/-- Clearing a settled table ends and leaves the empty map. -/
theorem Represents.clear (done : Settled table) :
    ∃ table', hashTableClear cfg table = some table' ∧ Represents cfg table' (∅ : HashMap cfg V) ∧
    Settled table' := by
  unfold hashTableClear
  rw [if_neg (fun inside => inside.1 done.level)]
  have noneMark := countP_marked_eq_zero done.unmarked
  have cleared : (table.bucketArray.map fun _ => ([] : List (KeyValuePair K V))) =
      .replicate table.bucketArray.length [] := map_const'
  have empty : Represents cfg
      { table with bucketArray := table.bucketArray.map fun _ => [], numOfElements := 0 }
        (∅ : HashMap cfg V) := by
    refine @Represents.change _ _ _ _ _ rep _ _ [] rfl (length_map _) ?_ ?_ nodup_nil .nil rfl ?_
    · dsimp only
      rw [cleared]
      exact .replicate _ _
    · rw [HashTable.pairs, cleared, flatten_replicate_nil]
    rw [rep.pending, noneMark]
    rfl
  obtain ⟨rehashed, perm, level⟩ := empty.rehash 5
  refine ⟨_, rfl, ?_, ?_⟩
  · rw [if_pos done.level]
    exact rehashed
  rw [if_pos done.level]
  refine ⟨level.trans done.level, fun pair mem => ?_⟩
  have inEmpty := perm.mem_iff.mp mem
  rw [HashTable.pairs, cleared, flatten_replicate_nil] at inEmpty
  cases inEmpty

end

/-! ## Whole runs -/

inductive HashTableCall (K V : Type) where
  | insert (key : Option K) (value : Option V)
  | remove (key : Option K)
  | setItemValue (key : Option K) (value : Option V)
  | getItemValue (key : Option K)
  | containsKey (key : Option K)
  | count
  | getKeys
  | clear
  | rehash (numOfBuckets : Nat)

inductive HashTableResult (C V : Type) where
  | status (ok : Bool)
  | value (value : Option V)
  | count (n : Nat)
  | keys (n : Nat) (keys : Multiset (Option C))
  | done

def hashTableCall (cfg : HashConfig K) (table : HashTable K V) :
    HashTableCall K V → Option (HashTable K V × HashTableResult cfg.Class V)
  | .insert key value => some (Prod.map id .status (hashTableInsert cfg table key value))
  | .remove key => some (Prod.map id .status (hashTableRemove cfg table key))
  | .setItemValue key value => some (Prod.map id .status (hashTableSetItemValue cfg table key value))
  | .getItemValue key => some (table, .value (hashTableGetItemValue cfg table key))
  | .containsKey key => some (table, .status (hashTableContainsKey cfg table key))
  | .count => some (table, .count (hashTableCount table))
  | .getKeys => (hashTableGetKeys table).map fun result =>
      (table, .keys result.1 (result.2.map (Option.map cfg.classOf) : List (Option cfg.Class)))
  | .clear => (hashTableClear cfg table).map fun table => (table, .done)
  | .rehash numOfBuckets => some (hashTableRehash cfg table numOfBuckets, .done)

/-- The calls on a finite map; a `NULL` key or an inserted `NULL` value is refused. -/
def mapCall (cfg : HashConfig K) (m : HashMap cfg V) :
    HashTableCall K V → HashMap cfg V × HashTableResult cfg.Class V
  | .insert (some key) (some value) => (m.insert (cfg.classOf key) (some value), .status true)
  | .insert _ _ => (m, .status false)
  | .remove (some key) => (m.erase (cfg.classOf key), .status (decide (cfg.classOf key ∈ m)))
  | .remove none => (m, .status false)
  | .setItemValue (some key) value =>
    (if cfg.classOf key ∈ m then m.insert (cfg.classOf key) value else m,
      .status (decide (cfg.classOf key ∈ m)))
  | .setItemValue none _ => (m, .status false)
  | .getItemValue key => (m, .value ((key.bind fun key => m.lookup (cfg.classOf key)).join))
  | .containsKey key => (m, .status (key.any fun key => decide (cfg.classOf key ∈ m)))
  | .count => (m, .count m.keys.card)
  | .getKeys => (m, .keys m.keys.card (m.keys.val.map some))
  | .clear => (∅, .done)
  | .rehash _ => (m, .done)

/-- One call on the table is the same call on the map. -/
theorem hashTableCall_simulates (table : HashTable K V) (m : HashMap cfg V) (call : HashTableCall K V)
    (related : Represents cfg table m ∧ Settled table) :
    ∃ table', hashTableCall cfg table call = some (table', (mapCall cfg m call).2) ∧
      Represents cfg table' (mapCall cfg m call).1 ∧ Settled table' := by
  obtain ⟨rep, done⟩ := related
  cases call with
  | insert key value =>
    match key, value with
    | some key, some value =>
      obtain ⟨inserted, status, level, kept⟩ := rep.insert key value
      exact ⟨_, by rw [hashTableCall, mapCall, ← status]; rfl, inserted, level.trans done.level,
        fun pair mem => (kept pair mem).elim (done.unmarked pair) id⟩
    | some _, none => exact ⟨table, rfl, rep, done⟩
    | none, some _ => exact ⟨table, rfl, rep, done⟩
    | none, none => exact ⟨table, rfl, rep, done⟩
  | remove key =>
    cases key with
    | none => exact ⟨table, rfl, rep, done⟩
    | some key =>
      obtain ⟨removed, status, done'⟩ := rep.remove done key
      exact ⟨_, by rw [hashTableCall, mapCall, ← status]; rfl, removed, done'⟩
  | setItemValue key value =>
    cases key with
    | none => exact ⟨table, rfl, rep, done⟩
    | some key =>
      obtain ⟨set, status, done'⟩ := rep.setItemValue done key value
      exact ⟨_, by rw [hashTableCall, mapCall, ← status]; rfl, set, done'⟩
  | getItemValue key =>
    refine ⟨table, ?_, rep, done⟩
    cases key with
    | none => rfl
    | some key =>
      rw [hashTableCall, rep.getItemValue key]
      rfl
  | containsKey key =>
    refine ⟨table, ?_, rep, done⟩
    cases key with
    | none => rfl
    | some key =>
      rw [hashTableCall, rep.containsKey key]
      rfl
  | count => exact ⟨table, by rw [hashTableCall, rep.count]; rfl, rep, done⟩
  | getKeys =>
    obtain ⟨_, read, classes⟩ := rep.getKeys
    exact ⟨table, by rw [hashTableCall, read, Option.map_some, classes]; rfl, rep, done⟩
  | clear =>
    obtain ⟨table', cleared, empty, done'⟩ := rep.clear done
    exact ⟨table', by rw [hashTableCall, cleared]; rfl, empty, done'⟩
  | rehash numOfBuckets =>
    obtain ⟨rehashed, perm, level⟩ := rep.rehash numOfBuckets
    exact ⟨_, rfl, rehashed, level.trans done.level, fun pair mem =>
      done.unmarked pair (perm.mem_iff.mp mem)⟩

theorem hashTableNew_represents (cfg : HashConfig K) :
    Represents cfg (hashTableNew K V) (∅ : HashMap cfg V) ∧ Settled (hashTableNew K V) := by
  have empty : (hashTableNew K V).pairs = [] := flatten_replicate_nil
  refine ⟨⟨rfl, Nat.zero_lt_succ 63, .replicate _ _, ?_, ?_, ?_, ?_⟩, rfl, ?_⟩
  · rw [empty]
    exact nodup_nil
  · rw [empty]
    exact .nil
  · rw [empty]
    rfl
  · rw [empty]
    rfl
  rw [empty]
  intro _ impossible
  cases impossible

/-- Over every list of calls the table is a finite map from classes of keys to values; a rehash only
reorders its pairs. -/
theorem hashTable_refines_finite_map (cfg : HashConfig K) (calls : List (HashTableCall K V)) :
    ∃ table, run (hashTableCall cfg) (hashTableNew K V) calls =
    some (table, outputs (mapCall cfg) ∅ calls) ∧
      (∀ key, (hashTableGet cfg table key).map KeyValuePair.value =
        (finalState (mapCall cfg) ∅ calls).lookup (cfg.classOf key)) ∧
      ∀ numOfBuckets, (hashTableRehash cfg table numOfBuckets).pairs.Perm table.pairs ∧
        ∀ key, hashTableGet cfg (hashTableRehash cfg table numOfBuckets) key =
        hashTableGet cfg table key := by
  obtain ⟨table, ran, represents, done⟩ :=
    run_refines (R := fun table m => Represents cfg table m ∧ Settled table)
    (fun table m call related _ => hashTableCall_simulates table m call related)
      (hashTableNew_represents cfg)
    (@callsMeet_of_forall _ _ _ _ (fun _ _ => True) (fun _ _ => trivial) _ calls)
  refine ⟨table, ran, fun key => ?_, fun numOfBuckets => ?_⟩
  · rw [represents.lookup key]
    cases get : hashTableGet cfg table key with
    | none => rfl
    | some pair =>
      dsimp only
      rw [done.unmarked_of_get represents get]
      rfl
  obtain ⟨rehashed, perm, -⟩ := represents.rehash numOfBuckets
  refine ⟨perm, fun key => Option.ext fun pair => ?_⟩
  rw [rehashed.get_eq_some_iff, represents.get_eq_some_iff, perm.mem_iff]

end KvmServer.Winpr
