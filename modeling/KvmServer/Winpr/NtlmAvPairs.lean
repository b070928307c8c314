import KvmServer.Lib.Bytes

/-! # The AV pairs of NTLM messages (`winpr/libwinpr/sspi/NTLM/ntlm_av_pairs.c`)

A pair is known by what is left of its list. -/

namespace KvmServer.Winpr
open Lib List

def ntlmAvPairGetId (pair : List UInt8) : Nat := leValue (pair.take 2)

def ntlmAvPairGetLen (pair : List UInt8) : Nat := leValue ((pair.drop 2).take 2)

def ntlmAvPairCheck (pair : List UInt8) : Bool :=
    4 ≤ pair.length ∧ ntlmAvPairGetLen pair + 4 ≤ pair.length

/-- The loop of `ntlm_av_pair_get`. -/
def ntlmAvPairFind (avId : Nat) (pair : List UInt8) : Option (List UInt8) :=
  -- without a header the loop ends, and the pointer is not NULL
  if pair.length < 4 then some pair
  else if ntlmAvPairGetId pair = avId then some pair
  else if ntlmAvPairGetId pair = 0 then none
  else if ntlmAvPairCheck pair then ntlmAvPairFind avId (pair.drop (ntlmAvPairGetLen pair + 4))
  else none
termination_by pair.length
decreasing_by
  rw [length_drop]
  omega

def ntlmAvPairGet (avId : Nat) (list : List UInt8) : Option (List UInt8) :=
  if ntlmAvPairCheck list then ntlmAvPairFind avId list else none

/-- The values that `ntlm_message.c` reads: the timestamp of a challenge, and the flags of a response. -/
inductive NtlmAvRead where
  | timestamp
  | flags

def NtlmAvRead.avId : NtlmAvRead → Nat
  | timestamp => 7
  | flags => 6

def NtlmAvRead.size : NtlmAvRead → Nat
  | timestamp => 8
  | flags => 4

def NtlmAvRead.Inside (read : NtlmAvRead) (list : List UInt8) : Prop :=
  ∀ pair ∈ ntlmAvPairGet read.avId list,
    4 ≤ pair.length ∧ read.size ≤ ntlmAvPairGetLen pair ∧ 4 + read.size ≤ pair.length

abbrev AvPair := Nat × List UInt8

def ntlmAvPair (pair : AvPair) : List UInt8 := leBytes 2 pair.1 ++ (leBytes 2 pair.2.length ++ pair.2)

def NtlmOthers (avId : Nat) (pairs : List AvPair) : Prop :=
  ∀ pair ∈ pairs, pair.1 < 2 ^ 16 ∧ pair.1 ≠ avId ∧ pair.1 ≠ 0 ∧ pair.2.length < 2 ^ 16

theorem ntlmAvPair_length (pair : AvPair) : (ntlmAvPair pair).length = pair.2.length + 4 := by
  simp only [ntlmAvPair, length_append, leBytes_length]
  omega

theorem ntlmAvPair_fields {pair : AvPair} (id : pair.1 < 2 ^ 16) (len : pair.2.length < 2 ^ 16)
    (rest : List UInt8) :
    ntlmAvPairGetId (ntlmAvPair pair ++ rest) = pair.1 ∧
    ntlmAvPairGetLen (ntlmAvPair pair ++ rest) = pair.2.length ∧
      (ntlmAvPair pair ++ rest).drop (pair.2.length + 4) = rest ∧
      ntlmAvPairCheck (ntlmAvPair pair ++ rest) := by
  have here : ntlmAvPairGetLen (ntlmAvPair pair ++ rest) = pair.2.length := by
    simp only [ntlmAvPairGetLen, ntlmAvPair, append_assoc]
    rw [drop_left' (leBytes_length ..), take_left' (leBytes_length ..), leValue_leBytes_of_lt len]
  refine ⟨?_, here, drop_left' (ntlmAvPair_length pair), ?_⟩
  · simp only [ntlmAvPairGetId, ntlmAvPair, append_assoc]
    rw [take_left' (leBytes_length ..), leValue_leBytes_of_lt id]
  · simp only [ntlmAvPairCheck, here, length_append, ntlmAvPair_length, decide_eq_true_eq]
    omega

theorem leValue_take_two {bs : List UInt8} (long : 2 ≤ bs.length) :
    leBytes 2 (leValue (bs.take 2)) = bs.take 2 ∧ leValue (bs.take 2) < 2 ^ 16 := by
  have len : (bs.take 2).length = 2 := length_take_of_le long
  have same := @leBytes_leValue (bs.take 2)
  have bound := @leValue_lt (bs.take 2)
  rw [len] at same bound
  exact ⟨same, bound⟩

theorem exists_ntlmAvPair (all : ntlmAvPairCheck list) :
    ∃ value : List UInt8, ntlmAvPairGetId list < 2 ^ 16 ∧ value.length < 2 ^ 16 ∧
      list = ntlmAvPair (ntlmAvPairGetId list, value) ++ list.drop (ntlmAvPairGetLen list + 4) := by
  obtain ⟨_, all⟩ := decide_eq_true_eq.mp all
  have len : ((list.drop 4).take (ntlmAvPairGetLen list)).length = ntlmAvPairGetLen list :=
    length_take_of_le (by rw [length_drop]; omega)
  obtain ⟨id, lt⟩ := @leValue_take_two list (by omega)
  obtain ⟨size, short⟩ := @leValue_take_two (list.drop 2) (by rw [length_drop]; omega)
  refine ⟨_, lt, lt_of_le_of_lt (le_of_eq len) short, ?_⟩
  have next : list.drop (ntlmAvPairGetLen list + 4) = (list.drop 4).drop (ntlmAvPairGetLen list) := by
    rw [drop_drop, add_comm]
  have four : list.drop 4 = (list.drop 2).drop 2 := by rw [drop_drop]
  simp only [ntlmAvPair, len, append_assoc, next, take_append_drop]
  rw [ntlmAvPairGetId, id, ntlmAvPairGetLen, size, four, take_append_drop, take_append_drop]

/-- The search goes over a pair with another id. -/
theorem ntlmAvPairFind_other {avId : Nat} {pair : AvPair} (lt : pair.1 < 2 ^ 16) (other : pair.1 ≠ avId)
    (more : pair.1 ≠ 0) (len : pair.2.length < 2 ^ 16) (rest : List UInt8) :
    ntlmAvPairFind avId (ntlmAvPair pair ++ rest) = ntlmAvPairFind avId rest := by
  obtain ⟨id, size, next, all⟩ := ntlmAvPair_fields lt len rest
  have long := (decide_eq_true_eq.mp all).1
  rw [ntlmAvPairFind, if_neg (by omega), id, if_neg other, if_neg more, if_pos all, size, next]

/-- The search stops at the first pair with the id or at the end of the list. -/
theorem ntlmAvPairFind_iff (avId : Nat) (list pair : List UInt8) :
    ntlmAvPairFind avId list = some pair ↔ ∃ pairs, NtlmOthers avId pairs ∧
    list = pairs.flatMap ntlmAvPair ++ pair ∧ (pair.length < 4 ∨ ntlmAvPairGetId pair = avId) := by
  constructor
  · intro got
    fun_induction ntlmAvPairFind avId list with
    | case1 list short =>
      obtain rfl := Option.some.inj got
      exact ⟨[], nofun, rfl, .inl short⟩
    | case2 list _ here =>
      obtain rfl := Option.some.inj got
      exact ⟨[], nofun, rfl, .inr here⟩
    | case3 | case5 => cases got
    | case4 list long other more all ih =>
      obtain ⟨value, id, lt, cut⟩ := exists_ntlmAvPair all
      obtain ⟨pairs, others, rest, last⟩ := ih got
      refine ⟨(ntlmAvPairGetId list, value) :: pairs,
        forall_mem_cons.mpr ⟨⟨id, other, more, lt⟩, others⟩, ?_, last⟩
      rw [flatMap_cons, append_assoc, ← rest, ← cut]
  · rintro ⟨pairs, others, rfl, last⟩
    induction pairs with
    | nil =>
      rw [ntlmAvPairFind]
      grind
    | cons _ pairs ih =>
      obtain ⟨⟨lt, other, more, len⟩, others⟩ := forall_mem_cons.mp others
      rw [flatMap_cons, append_assoc, ntlmAvPairFind_other lt other more len]
      exact ih others

theorem ntlmAvPairs_check (others : NtlmOthers avId pairs) (fst : pairs = [] → ntlmAvPairCheck rest) :
    ntlmAvPairCheck (pairs.flatMap ntlmAvPair ++ rest) := by
  cases pairs with
  | nil => exact fst rfl
  | cons pair pairs =>
    obtain ⟨lt, _, _, len⟩ := others pair mem_cons_self
    rw [flatMap_cons, append_assoc]
    exact (ntlmAvPair_fields lt len _).2.2.2

/-- The value is read in bounds exactly if the list does not end between two pairs, and a pair with
the id is whole and large enough. -/
theorem ntlm_av_value_inside_iff (read : NtlmAvRead) (list : List UInt8) :
    read.Inside list ↔ ∀ pairs rest, NtlmOthers read.avId pairs →
    list = pairs.flatMap ntlmAvPair ++ rest →
      (pairs = [] → ntlmAvPairCheck rest) → 4 ≤ rest.length ∧ (ntlmAvPairGetId rest = read.avId →
        read.size ≤ ntlmAvPairGetLen rest ∧ 4 + read.size ≤ rest.length) := by
  constructor
  · rintro inside pairs rest others rfl fst
    have all := ntlmAvPairs_check others fst
    have get (last : rest.length < 4 ∨ ntlmAvPairGetId rest = read.avId) := inside rest (by
      rw [ntlmAvPairGet, if_pos all]
      exact (ntlmAvPairFind_iff ..).mpr ⟨pairs, others, rfl, last⟩)
    exact ⟨not_lt.mp fun short => absurd (get (.inl short)).1 (not_le.mpr short),
      fun here => (get (.inr here)).2⟩
  · intro condition pair got
    unfold ntlmAvPairGet at got
    split at got
    next all =>
      obtain ⟨pairs, others, rfl, last⟩ := (ntlmAvPairFind_iff ..).mp got
      have here := condition pairs pair others rfl (fun none => by rwa [none] at all)
      exact ⟨here.1, here.2 (last.resolve_left (not_lt.mpr here.1))⟩
    next => cases got

/-- A list of one pair without a terminator, in which no timestamp is. -/
theorem ntlm_av_value_not_inside : ¬ NtlmAvRead.timestamp.Inside [1, 0, 0, 0] := by
  intro inside
  have got : ntlmAvPairGet 7 [1, 0, 0, 0] = some [] := by
    simp [ntlmAvPairGet, ntlmAvPairFind, ntlmAvPairCheck, ntlmAvPairGetLen, ntlmAvPairGetId, leValue]
  exact absurd (inside [] got).1 (by decide)

/-! ## Lists that are built -/

def ntlmAvPairListInit (list : List UInt8) : Option (List UInt8) :=
  if list.length < 4 then none else some (replicate 4 0 ++ list.drop 4)

def ntlmAvPairListSize (pairs : List AvPair) : Nat :=
  (pairs.length + 1) * 4 + (pairs.map (·.2.length)).sum

/-- The pair is written over the terminator, and that behind it. -/
def ntlmAvPairAdd (list : List UInt8) (added : AvPair) : Option (List UInt8) :=
  match ntlmAvPairGet 0 list with
  | none => none
  | some pair =>
    if pair.length < 8 + added.2.length then none
    else
      let pair' := ntlmAvPair added ++ pair.drop (4 + added.2.length)
      -- `ntlm_av_pair_next`, and the terminator there
      if ntlmAvPairCheck pair' then
        (ntlmAvPairListInit (pair'.drop (ntlmAvPairGetLen pair' + 4))).map fun rest =>
          list.take (list.length - pair.length) ++ (pair'.take (ntlmAvPairGetLen pair' + 4) ++ rest)
      else none

/-- Nothing is returned where an assertion fails. -/
def ntlmAvPairListLength (list : List UInt8) : Option Nat :=
  match ntlmAvPairGet 0 list with
  | none => some 0
  | some pair =>
    let size := list.length - pair.length + 4
    if size ≤ 2 ^ 32 - 1 then some size else none

def ntlmAvPairAddAll (list : List UInt8) (pairs : List AvPair) : Option (List UInt8) :=
  (ntlmAvPairListInit list).bind (pairs.foldlM ntlmAvPairAdd)

def ntlmAvList (pairs : List AvPair) (room : List UInt8) : List UInt8 :=
  pairs.flatMap ntlmAvPair ++ (replicate 4 0 ++ room)

theorem ntlmAvList_check (others : NtlmOthers 0 pairs) (room : List UInt8) :
    ntlmAvPairCheck (ntlmAvList pairs room) :=
  ntlmAvPairs_check others fun _ => by simp [ntlmAvPairCheck, ntlmAvPairGetLen, leValue, replicate]

theorem ntlmAvList_get (others : NtlmOthers 0 pairs) (room : List UInt8) :
    ntlmAvPairGet 0 (ntlmAvList pairs room) = some (replicate 4 0 ++ room) := by
  rw [ntlmAvPairGet, if_pos (ntlmAvList_check others room)]
  exact (ntlmAvPairFind_iff ..).mpr ⟨pairs, others, rfl, .inr rfl⟩

theorem ntlmAvPairAdd_list (others : NtlmOthers 0 pairs) (lt : added.1 < 2 ^ 16)
    (len : added.2.length < 2 ^ 16)
    (enough : 4 + added.2.length ≤ room.length) : ntlmAvPairAdd (ntlmAvList pairs room) added =
      some (ntlmAvList (pairs ++ [added]) (room.drop (4 + added.2.length))) := by
  have zeros : (replicate 4 (0 : UInt8) ++ room).length = 4 + room.length :=
    by rw [length_append, length_replicate]
  obtain ⟨-, size, rest, all⟩ :=
    ntlmAvPair_fields lt len ((replicate 4 0 ++ room).drop (4 + added.2.length))
  have pre : (ntlmAvList pairs room).take
      ((ntlmAvList pairs room).length - (replicate 4 (0 : UInt8) ++ room).length) =
      pairs.flatMap ntlmAvPair := by
    rw [ntlmAvList, length_append, Nat.add_sub_cancel, take_left]
  have left : ((replicate 4 (0 : UInt8) ++ room).drop (4 + added.2.length)).drop 4 =
      room.drop (4 + added.2.length) := by
    rw [drop_drop, add_comm, ← drop_drop, drop_left' length_replicate]
  unfold ntlmAvPairAdd
  rw [ntlmAvList_get others]
  dsimp only
  rw [if_neg (by omega), if_pos all, size, rest, ntlmAvPairListInit,
    if_neg (by rw [length_drop]; omega), Option.map_some,
    pre, take_left' (ntlmAvPair_length added), left, ntlmAvList, flatMap_append,
      flatMap_singleton, append_assoc]

theorem ntlmAvPairAdd_all (others : NtlmOthers 0 (pairs ++ added))
    (enough : (added.map (4 + ·.2.length)).sum ≤ room.length) :
    added.foldlM ntlmAvPairAdd (ntlmAvList pairs room) =
      some (ntlmAvList (pairs ++ added) (room.drop (added.map (4 + ·.2.length)).sum)) := by
  induction added generalizing pairs room with
  | nil => simp
  | cons pair added ih =>
    rw [map_cons, sum_cons] at enough
    obtain ⟨pre, back⟩ := forall_mem_append.mp others
    obtain ⟨lt, _, _, len⟩ := back pair mem_cons_self
    rw [foldlM_cons, ntlmAvPairAdd_list pre lt len (by omega), Option.bind_eq_bind, Option.bind_some,
      ih (by rwa [append_assoc]) (by rw [length_drop]; omega), drop_drop,
        append_assoc, map_cons, sum_cons]
    rfl

def ntlmAvPairGetValue (pair : List UInt8) : AvPair :=
  (ntlmAvPairGetId pair, (pair.drop 4).take (ntlmAvPairGetLen pair))

theorem ntlmAvPairFind_list (others : NtlmOthers 0 pairs) (named : avId ≠ 0) :
    (ntlmAvPairFind avId (ntlmAvList pairs [])).map ntlmAvPairGetValue = pairs.find? (·.1 = avId) := by
  induction pairs with
  | nil =>
    rw [ntlmAvPairFind]
    simp [ntlmAvList, ntlmAvPairGetId, leValue, replicate, named.symm]
  | cons pair pairs ih =>
    obtain ⟨⟨lt, _, more, len⟩, others⟩ := forall_mem_cons.mp others
    have list : ntlmAvList (pair :: pairs) [] = ntlmAvPair pair ++ ntlmAvList pairs [] := by
      rw [ntlmAvList, flatMap_cons, append_assoc, ntlmAvList]
    rw [list, find?_cons]
    by_cases here : pair.1 = avId
    · obtain ⟨id, size, -, all⟩ := ntlmAvPair_fields lt len (ntlmAvList pairs [])
      have long := (decide_eq_true_eq.mp all).1
      have value : (ntlmAvPair pair ++ ntlmAvList pairs []).drop 4 = pair.2 ++ ntlmAvList pairs [] := by
        rw [ntlmAvPair, ← append_assoc, append_assoc, drop_left' (by simp)]
      rw [ntlmAvPairFind, if_neg (by omega), id, if_pos here, Option.map_some,
        ntlmAvPairGetValue, id, size, value, take_left, decide_eq_true here]
    · rw [ntlmAvPairFind_other lt here more len, ih others, decide_eq_false here]

theorem ntlmAvPair_sizes (pairs : List AvPair) :
    ntlmAvPairListSize pairs = 4 + (pairs.map (4 + ·.2.length)).sum ∧
      (pairs.flatMap ntlmAvPair).length = (pairs.map (4 + ·.2.length)).sum := by
  induction pairs with
  | nil => exact ⟨rfl, rfl⟩
  | cons _ pairs ih =>
    simp only [ntlmAvPairListSize, ntlmAvPair, flatMap_cons, map_cons, sum_cons,
      length_cons, length_append, leBytes_length]
      at ih ⊢
    omega

theorem ntlmAvList_length (pairs : List AvPair) :
    (ntlmAvList pairs []).length = ntlmAvPairListSize pairs := by
  rw [ntlmAvList, append_nil, length_append, length_replicate, (ntlmAvPair_sizes pairs).1,
    (ntlmAvPair_sizes pairs).2, add_comm]

theorem ntlmAvPairAddAll_list (others : NtlmOthers 0 pairs)
    (size : buffer.length = ntlmAvPairListSize pairs) :
    ntlmAvPairAddAll buffer pairs = some (ntlmAvList pairs []) := by
  rw [(ntlmAvPair_sizes pairs).1] at size
  have room : (buffer.drop 4).length = (pairs.map (4 + ·.2.length)).sum := by
    rw [length_drop]
    omega
  rw [ntlmAvPairAddAll, ntlmAvPairListInit, if_neg (by omega), Option.bind_some]
  have all := ntlmAvPairAdd_all (show NtlmOthers 0 ([] ++ pairs) from others) (le_of_eq room.symm)
  rwa [drop_of_length_le (le_of_eq room)] at all

theorem ntlmAvPairListLength_list (others : NtlmOthers 0 pairs) :
    ntlmAvPairListLength (ntlmAvList pairs []) =
    if ntlmAvPairListSize pairs ≤ 2 ^ 32 - 1 then some (ntlmAvPairListSize pairs) else none := by
  have len := ntlmAvList_length pairs
  have ge := (ntlmAvPair_sizes pairs).1
  unfold ntlmAvPairListLength
  rw [ntlmAvList_get others]
  dsimp only
  rw [append_nil, length_replicate, len, Nat.sub_add_cancel (by omega)]

/-- The list is the map of the pairs that were added, and its length is known where that has 32 bits. -/
theorem ntlm_av_list_of_pairs (pairs : List AvPair) (others : NtlmOthers 0 pairs) (buffer : List UInt8)
    (size : buffer.length = ntlmAvPairListSize pairs) :
    ∃ list, ntlmAvPairAddAll buffer pairs = some list ∧ list.length = buffer.length ∧
      (∀ avId ≠ 0, (ntlmAvPairGet avId list).map ntlmAvPairGetValue = pairs.find? (·.1 = avId)) ∧
      ntlmAvPairListLength list =
        if ntlmAvPairListSize pairs < 2 ^ 32 then some (ntlmAvPairListSize pairs) else none := by
  refine ⟨ntlmAvList pairs [], ntlmAvPairAddAll_list others size, ?_, fun avId named => ?_, ?_⟩
  · rw [size, ntlmAvList_length]
  · rw [ntlmAvPairGet, if_pos (ntlmAvList_check others []), ntlmAvPairFind_list others named]
  · rw [ntlmAvPairListLength_list others]
    exact if_congr (by omega) rfl rfl

/-- Three pairs, of which the last repeats the id of the first. -/
def threeAvPairs : List AvPair := [(1, [0x41]), (2, [0x42, 0x43]), (1, [0x44])]

/-- Of two pairs with one id the first is found. -/
theorem ntlm_av_list_of_three : ∃ list, ntlmAvPairAddAll (replicate 20 0xFF) threeAvPairs = some list ∧
    (ntlmAvPairGet 1 list).map ntlmAvPairGetValue = some (1, [0x41]) ∧
    (ntlmAvPairGet 2 list).map ntlmAvPairGetValue = some (2, [0x42, 0x43]) ∧
    (ntlmAvPairGet 3 list).map ntlmAvPairGetValue = none ∧ ntlmAvPairListLength list = some 20 := by
  have others : NtlmOthers 0 threeAvPairs := by simp [NtlmOthers, threeAvPairs]
  obtain ⟨list, added, -, found, length⟩ :=
    ntlm_av_list_of_pairs threeAvPairs others (replicate 20 0xFF) rfl
  exact ⟨list, added, found 1 (by decide), found 2 (by decide), found 3 (by decide), length⟩

/-- The length of a list that does not have 32 bits. -/
theorem ntlm_av_list_too_long : ∃ pairs buffer list, NtlmOthers 0 pairs ∧
    buffer.length = ntlmAvPairListSize pairs ∧
    ntlmAvPairAddAll buffer pairs = some list ∧ ntlmAvPairListLength list = none := by
  obtain ⟨value, len⟩ : ∃ value : List UInt8, value.length = 65535 := ⟨_, @length_replicate _ _ 0⟩
  obtain ⟨pairs, same⟩ : ∃ pairs, pairs = replicate 65537 (1, value) := ⟨_, rfl⟩
  obtain ⟨buffer, size⟩ : ∃ buffer : List UInt8, buffer.length = ntlmAvPairListSize pairs :=
    ⟨_, @length_replicate _ _ 0⟩
  have others : NtlmOthers 0 pairs := by
    intro _ mem
    rw [same] at mem
    rw [eq_of_mem_replicate mem]
    simp [len]
  have big : ¬ntlmAvPairListSize pairs ≤ 2 ^ 32 - 1 := by
    rw [ntlmAvPairListSize, same, map_replicate, sum_replicate_nat, length_replicate, len]
    decide
  exact ⟨pairs, buffer, _, others, size, ntlmAvPairAddAll_list others size,
    (ntlmAvPairListLength_list others).trans (if_neg big)⟩

end KvmServer.Winpr
