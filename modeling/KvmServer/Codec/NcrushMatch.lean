import KvmServer.Codec.Ncrush
import KvmServer.Lib.Lz

/-! # Finding matches

`HashTable` holds the last position of every two-byte word, `MatchTable` links a position to the
last earlier one with the same word.  A search that follows these `Chains` only reports true
repetitions. -/

namespace KvmServer.Codec
open Lib

def wordAt (mem : Mem UInt8) (x : Nat) : Nat := (mem x).toNat ||| (mem (x + 1)).toNat <<< 8

/-- Positions below `next` are chained by their words; position 0 ends every chain. -/
structure Chains (mem : Mem UInt8) (hashTable matchTable : Mem Nat) (next : Nat) : Prop where
  front : matchTable 0 = 0
  link : ∀ x, matchTable x ≠ 0 → matchTable x < x ∧ x < next ∧ wordAt mem (matchTable x) = wordAt mem x
  head : ∀ w, hashTable w ≠ 0 → hashTable w < next ∧ wordAt mem (hashTable w) = w

variable {mem : Mem UInt8} {x : Nat}

theorem wordAt_congr {mem' : Mem UInt8} (same : mem x = mem' x)
    (sameNext : mem (x + 1) = mem' (x + 1)) : wordAt mem x = wordAt mem' x := by
  rw [wordAt, wordAt, same, sameNext]

theorem wordAt_inj {y : Nat} (same : wordAt mem x = wordAt mem y) :
    mem x = mem y ∧ mem (x + 1) = mem (y + 1) := by
  have sum (z : Nat) : wordAt mem z = (mem z).toNat + 256 * (mem (z + 1)).toNat := by
    have lt : (mem z).toNat < 2 ^ 8 := (mem z).toNat_lt
    rw [wordAt, Nat.lor_comm, Nat.shiftLeft_eq, mul_two_pow_or lt]
    omega
  rw [sum, sum] at same
  have := (mem x).toNat_lt
  have := (mem y).toNat_lt
  exact ⟨UInt8.toNat_inj.mp (by omega), UInt8.toNat_inj.mp (by omega)⟩

theorem wordAt_lt (mem : Mem UInt8) (x : Nat) : wordAt mem x < 65536 := by
  have low : (mem x).toNat < 2 ^ 8 := (mem x).toNat_lt
  have high : (mem (x + 1)).toNat < 2 ^ 8 := (mem (x + 1)).toNat_lt
  rw [wordAt, Nat.lor_comm, Nat.shiftLeft_eq, mul_two_pow_or low]
  omega

namespace Chains

variable {mem : Mem UInt8} {hashTbl matchTbl : Mem Nat} {next : Nat}

section
variable (chains : Chains mem hashTbl matchTbl next)
include chains

theorem mono {next' : Nat} (le : next ≤ next') : Chains mem hashTbl matchTbl next' := by
  refine ⟨chains.front, fun x linked => ?_, fun w entry => ?_⟩
  · obtain ⟨past, inside, same⟩ := chains.link x linked
    exact ⟨past, by omega, same⟩
  obtain ⟨inside, same⟩ := chains.head w entry
  exact ⟨by omega, same⟩

theorem congr {mem' : Mem UInt8} (agree : ∀ x, x < next → wordAt mem x = wordAt mem' x) :
    Chains mem' hashTbl matchTbl next := by
  refine ⟨chains.front, fun x linked => ?_, fun w entry => ?_⟩
  · obtain ⟨past, inside, same⟩ := chains.link x linked
    refine ⟨past, inside, ?_⟩
    rw [← agree _ (by omega), ← agree _ inside]
    exact same
  obtain ⟨inside, same⟩ := chains.head w entry
  refine ⟨inside, ?_⟩
  rw [← agree _ inside]
  exact same

theorem enter (lt : next < 65536) : Chains mem (store hashTbl (wordAt mem next) (next % 2 ^ 16))
      (store matchTbl next (hashTbl (wordAt mem next))) (next + 1) := by
  rw [Nat.mod_eq_of_lt (by omega)]
  refine ⟨?_, fun x linked => ?_, fun w entry => ?_⟩
  · by_cases zero : next = 0
    · subst zero
      by_contra entry
      exact absurd (chains.head _ entry).1 (by omega)
    rw [store_of_ne _ _ (Ne.symm zero)]
    exact chains.front
  · by_cases here : x = next
    · subst here
      rw [store_same] at linked ⊢
      obtain ⟨inside, same⟩ := chains.head _ linked
      exact ⟨inside, by omega, same⟩
    rw [store_of_ne _ _ here] at linked ⊢
    obtain ⟨past, inside, same⟩ := chains.link x linked
    exact ⟨past, by omega, same⟩
  by_cases here : w = wordAt mem next
  · rw [here, store_same]
    exact ⟨by omega, rfl⟩
  rw [store_of_ne _ _ here] at entry ⊢
  obtain ⟨inside, same⟩ := chains.head w entry
  exact ⟨by omega, same⟩

end

end Chains

theorem hashTableAdd_chains {hashTable matchTable : Mem Nat} {off : Nat}
    {src : List UInt8} (chains : Chains mem hashTable matchTable off)
    (held : block mem off src.length = src) (le : off + src.length ≤ 65536) :
    Chains mem (ncrushHashTableAdd hashTable matchTable off src).1
      (ncrushHashTableAdd hashTable matchTable off src).2 (off + (src.length - 8)) := by
  fun_induction ncrushHashTableAdd hashTable matchTable off src with
  | case1 hashTable matchTable off b0 b1 b2 b3 b4 b5 b6 b7 b8 src word hash ih =>
    obtain ⟨fst, rest⟩ := List.cons.inj held
    obtain ⟨second, -⟩ := List.cons.inj rest
    have here : wordAt mem off = word := by rw [wordAt, fst, second]
    have entry := chains.enter (by simp at le; omega)
    rw [here] at entry
    have done := ih entry rest (by simp at le ⊢; omega)
    refine Chains.mono done ?_
    simp
    omega
  | case2 => exact chains.mono (by omega)

/-! ## The search -/

variable (mem : Mem UInt8)

theorem matchLengthScan_spec {historyPtr fuel ptr1 : Nat} (ptr2 : Nat)
    (inside : ptr1 ≤ historyPtr + 1) (room : historyPtr + 2 - ptr1 ≤ fuel) :
    ptr1 ≤ matchLengthScan mem historyPtr fuel ptr1 ptr2 ∧
      (ptr1 ≤ historyPtr → ptr1 < matchLengthScan mem historyPtr fuel ptr1 ptr2) ∧
      matchLengthScan mem historyPtr fuel ptr1 ptr2 ≤ historyPtr + 1 ∧
      ∀ k, ptr1 + k + 1 < matchLengthScan mem historyPtr fuel ptr1 ptr2 →
      mem (ptr1 + k) = mem (ptr2 + k) := by
  induction fuel generalizing ptr1 ptr2 with
  | zero => omega
  | succ fuel ih =>
    rw [matchLengthScan]
    by_cases past : ptr1 > historyPtr
    · rw [if_pos past]
      exact ⟨le_rfl, by omega, by omega, by omega⟩
    rw [if_neg past]
    by_cases same : mem ptr1 = mem ptr2
    · rw [if_pos same]
      obtain ⟨_, -, up, eq⟩ := ih (ptr2 + 1) (by omega : ptr1 + 1 ≤ _) (by omega)
      refine ⟨by omega, by omega, up, fun k pre => ?_⟩
      cases k with
      | zero => exact same
      | succ k =>
        rw [← add_assoc, ← add_assoc, add_right_comm ptr1, add_right_comm ptr2]
        exact eq k (by omega)
    · rw [if_neg same]
      exact ⟨by omega, by omega, by omega, by omega⟩

theorem ncrushFindMatchLength_spec {historyPtr ptr1 : Nat} (ptr2 : Nat) (inside : ptr1 ≤ historyPtr) :
    ∃ n : Nat, ncrushFindMatchLength mem ptr1 ptr2 historyPtr = n ∧ ptr1 + n ≤ historyPtr ∧
      ∀ k, k < n → mem (ptr1 + k) = mem (ptr2 + k) := by
  obtain ⟨-, _, _, eq⟩ :=
    @matchLengthScan_spec mem historyPtr (historyPtr + 2 - ptr1) ptr1 ptr2 (by omega) le_rfl
  refine ⟨matchLengthScan mem historyPtr (historyPtr + 2 - ptr1) ptr1 ptr2 - (ptr1 + 1), ?_, by omega,
    fun k below => eq k (by omega)⟩
  rw [ncrushFindMatchLength]
  omega

def SameCells (x y n : Nat) : Prop := ∀ k, k < n → mem (x + k) = mem (y + k)

structure IsMatch (mem : Mem UInt8) (historyOffset historyPtr length matchOffset : Nat) : Prop where
  least : 2 ≤ length
  most : length ≤ 16
  inside : historyOffset + length ≤ historyPtr
  behind : matchOffset < historyOffset
  same : SameCells mem matchOffset historyOffset length

section
variable {mem : Mem UInt8} {hashTbl matchTbl : Mem Nat} {next historyOffset histPtr : Nat}
  {tbl : Mem Nat}

/-- A position the search can meet: an earlier one with the word of `historyOffset`, or one of the
two at which it stops. -/
def OnChain (mem : Mem UInt8) (historyOffset x : Nat) : Prop :=
  x = 0 ∨ x = historyOffset ∨ x < historyOffset ∧ wordAt mem x = wordAt mem historyOffset

theorem onChain_next (chains : Chains mem hashTbl matchTbl next) (pos : historyOffset ≠ 0)
    (onChain : OnChain mem historyOffset x) :
    OnChain mem historyOffset (store matchTbl 0 historyOffset x) := by
  by_cases zero : x = 0
  · rw [zero, store_same]
    exact Or.inr (Or.inl rfl)
  rw [store_of_ne _ _ zero]
  by_cases last : matchTbl x = 0
  · exact Or.inl last
  obtain ⟨past, -, same⟩ := chains.link x last
  cases onChain with
  | inl atZero => exact absurd atZero zero
  | inr rest =>
    cases rest with
    | inl st =>
      subst st
      exact Or.inr (Or.inr ⟨past, same⟩)
    | inr earlier => exact Or.inr (Or.inr ⟨by omega, same.trans earlier.2⟩)

theorem ncrushProbe_onChain (step : ∀ x, OnChain mem historyOffset x → OnChain mem historyOffset (tbl x))
    (matchLen : Nat) (target : UInt8) {n off nextOff : Nat} {even : Bool}
    (fst : OnChain mem historyOffset off) (second : OnChain mem historyOffset nextOff) :
    let probed := ncrushProbe mem tbl matchLen target n even off nextOff
    (∀ x, probed.1 = some x → OnChain mem historyOffset x) ∧ OnChain mem historyOffset probed.2.1 ∧
      OnChain mem historyOffset probed.2.2 := by
  fun_induction ncrushProbe mem tbl matchLen target n even off nextOff with
  | case1 => exact ⟨by simp, fst, second⟩
  | case2 => exact ⟨fun x got => by cases got; exact second, step _ second, second⟩
  | case3 _ _ _ _ ih => exact ih (step _ second) second
  | case4 => exact ⟨fun x got => by cases got; exact fst, fst, step _ fst⟩
  | case5 _ _ _ _ ih => exact ih fst (step _ fst)

theorem OnChain.extends (onChain : OnChain mem historyOffset x) (proper : x ≠ historyOffset ∧ x ≠ 0)
    (room : historyOffset + 2 ≤ histPtr) : x < historyOffset ∧ ∃ n : Nat,
      ncrushFindMatchLength mem (historyOffset + 2) (x + 2) histPtr + 2 = ((n + 2 : Nat) : Int) ∧
      historyOffset + (n + 2) ≤ histPtr ∧ SameCells mem x historyOffset (n + 2) := by
  obtain ⟨past, same⟩ : x < historyOffset ∧ wordAt mem x = wordAt mem historyOffset := by
    cases onChain with
    | inl zero => exact absurd zero proper.2
    | inr rest =>
      cases rest with
      | inl st => exact absurd st proper.1
      | inr earlier => exact earlier
  obtain ⟨n, _, _, eq⟩ := ncrushFindMatchLength_spec mem (x + 2) room
  obtain ⟨fstCell, secondCell⟩ := wordAt_inj same
  refine ⟨past, n, by omega, by omega, fun k lo => ?_⟩
  match k with
  | 0 => exact fstCell
  | 1 => exact secondCell
  | k + 2 =>
    rw [add_comm k, ← add_assoc, ← add_assoc]
    exact (eq k (by omega)).symm

theorem bestMatchLoop_isMatch
    (step : ∀ x, OnChain mem historyOffset x → OnChain mem historyOffset (tbl x))
    (room : historyOffset + 2 ≤ histPtr) {rounds matchLen matchOff off nextOff : Nat}
    (got : IsMatch mem historyOffset histPtr matchLen matchOff) (fst : OnChain mem historyOffset off)
    (second : OnChain mem historyOffset nextOff) : ∃ len start,
    IsMatch mem historyOffset histPtr len start ∧
      ncrushBestMatchLoop mem tbl historyOffset histPtr rounds matchLen matchOff off nextOff =
      some (len, start) := by
  induction rounds generalizing matchLen matchOff off nextOff with
  | zero => exact ⟨_, _, got, rfl⟩
  | succ rounds ih =>
    obtain ⟨passed, onChain₁, onChain₂⟩ := @ncrushProbe_onChain mem historyOffset tbl step
      matchLen (mem (historyOffset + matchLen)) 6 off nextOff true fst second
    rw [ncrushBestMatchLoop]
    generalize ncrushProbe mem tbl matchLen (mem (historyOffset + matchLen)) 6 true off nextOff =
      probed at passed onChain₁ onChain₂
    obtain ⟨candidate, _, _⟩ := probed
    cases candidate with
    | none => exact ih got onChain₁ onChain₂
    | some x =>
      have onChain := passed x rfl
      dsimp only
      by_cases proper : x ≠ historyOffset ∧ x ≠ 0
      · obtain ⟨past, n, len, inside, same⟩ := onChain.extends proper room
        rw [if_pos proper, len, if_neg (by omega)]
        by_cases long : ((n + 2 : Nat) : Int) > 16
        · rw [if_pos long]
          exact ⟨_, _, got, rfl⟩
        rw [if_neg long]
        have better : IsMatch mem historyOffset histPtr (n + 2) x :=
          ⟨by omega, by omega, inside, past, same⟩
        have kept : IsMatch mem historyOffset histPtr
            (if ((n + 2 : Nat) : Int) > matchLen then ((n + 2 : Nat) : Int).toNat else matchLen)
            (if ((n + 2 : Nat) : Int) > matchLen then x else matchOff) := by
          split
          · exact better
          · exact got
        generalize (if ((n + 2 : Nat) : Int) > matchLen then ((n + 2 : Nat) : Int).toNat
          else matchLen) = len' at kept ⊢
        by_cases goesOn : ((n + 2 : Nat) : Int) ≤ len' ∨ historyOffset + 2 < histPtr
        · rw [if_pos goesOn]
          exact ih kept onChain (step x onChain)
        rw [if_neg goesOn]
        exact ⟨_, _, kept, rfl⟩
      · rw [if_neg proper]
        exact ⟨_, _, got, rfl⟩

end

theorem findBestMatch_spec {nc : NcrushContext} {next historyOffset : Nat}
    (chains : Chains nc.historyBuffer nc.hashTable nc.matchTable next)
    (linked : nc.matchTable historyOffset ≠ 0) (room : historyOffset + 2 ≤ nc.historyPtr) :
    ∃ len st, IsMatch nc.historyBuffer historyOffset nc.historyPtr len st ∧
      ncrushFindBestMatch nc historyOffset = (nc.matchTable, some (len, st)) := by
  have pos : historyOffset ≠ 0 := by
    intro zero
    rw [zero] at linked
    exact linked chains.front
  obtain ⟨past, -, same⟩ := chains.link historyOffset linked
  obtain ⟨fstCell, secondCell⟩ := wordAt_inj same
  have two : IsMatch nc.historyBuffer historyOffset nc.historyPtr 2 (nc.matchTable historyOffset) := by
    refine ⟨le_rfl, by decide, room, past, fun k lo => ?_⟩
    match k with
    | 0 => exact fstCell
    | 1 => exact secondCell
  have restored : store (store nc.matchTable 0 historyOffset) 0 0 = nc.matchTable := by
    apply Mem.ext
    intro x
    by_cases zero : x = 0
    · rw [zero, store_same, chains.front]
    · rw [store_of_ne _ _ zero, store_of_ne _ _ zero]
  obtain ⟨len, st, isMatch, res⟩ :=
    @bestMatchLoop_isMatch _ _ _ (store nc.matchTable 0 historyOffset)
      (fun x => onChain_next chains pos) room 4 2 (nc.matchTable historyOffset) historyOffset
      (nc.matchTable historyOffset) two (Or.inr (Or.inl rfl)) (Or.inr (Or.inr ⟨past, same⟩))
  refine ⟨len, st, isMatch, ?_⟩
  unfold ncrushFindBestMatch
  dsimp only
  rw [if_neg linked, store_of_ne _ _ pos, res]
  rw [restored]

/-! ## Moving the window -/

section
variable {mem : Mem UInt8} {hashTbl matchTbl : Mem Nat} {d x : Nat}

theorem moveHistory_of_lt (lo : x < 32768) : moveHistory mem d x = mem (d + x) := if_pos lo

theorem wordAt_moveHistory (lo : x < 32767) : wordAt (moveHistory mem d) x = wordAt mem (d + x) := by
  rw [wordAt, moveHistory_of_lt (by omega), moveHistory_of_lt (by omega)]
  rfl

theorem moveHashTable_of_lt (lo : x < 65536) : moveHashTable hashTbl d x = hashTbl x - d :=
  if_pos lo

theorem moveMatchTable_low (lo : x < 32768) (inside : d + x < 65536) :
    moveMatchTable matchTbl d x = matchTbl (d + x) - d := by
  rw [moveMatchTable]
  dsimp only
  rw [if_pos lo, if_neg (Nat.not_le_of_lt inside)]

theorem moveMatchTable_high (hi : 32768 ≤ x) :
    moveMatchTable matchTbl d x = if x < 65536 then 0 else matchTbl x :=
  if_neg (Nat.not_lt_of_le hi)

theorem Chains.moved {next : Nat} (chains : Chains mem hashTbl matchTbl next)
    (pre : next < d + 32768) (inside : d ≤ 32768) :
    Chains (moveHistory mem d) (moveHashTable hashTbl d) (moveMatchTable matchTbl d) 32767 := by
  refine ⟨?_, fun x linked => ?_, fun w ent => ?_⟩
  · rw [moveMatchTable_low (by omega) (by omega), add_zero]
    by_cases last : matchTbl d = 0
    · rw [last, Nat.zero_sub]
    have := (chains.link d last).1
    omega
  · by_cases low : x < 32768
    · rw [moveMatchTable_low low (by omega)] at linked ⊢
      obtain ⟨_, inWin, same⟩ := chains.link (d + x) (by omega)
      refine ⟨by omega, by omega, ?_⟩
      rw [wordAt_moveHistory (by omega), wordAt_moveHistory (by omega), Nat.add_sub_cancel' (by omega)]
      exact same
    rw [moveMatchTable_high (by omega)] at linked
    by_cases up : x < 65536
    · rw [if_pos up] at linked
      exact absurd rfl linked
    rw [if_neg up] at linked
    have := (chains.link x linked).2.1
    omega
  by_cases lt : w < 65536
  · rw [moveHashTable_of_lt lt] at ent ⊢
    obtain ⟨inWin, same⟩ := chains.head w (by omega)
    refine ⟨by omega, ?_⟩
    rw [wordAt_moveHistory (by omega), Nat.add_sub_cancel' (by omega)]
    exact same
  -- no word is that large
  have entry : moveHashTable hashTbl d w = hashTbl w := if_neg lt
  rw [entry] at ent
  have := wordAt_lt mem (hashTbl w)
  rw [(chains.head w ent).2] at this
  exact absurd this lt

end

end KvmServer.Codec
