import KvmServer.Codec.XcrushDecoder

/-! # The parse of a packet

Level 1 sends a packet as matches and the literals between them.  Trimming keeps every match a tail
of one that was found, and matches and literals together cover each byte of the packet once. -/

namespace KvmServer.Codec
open Lib List

def XcrushMatchInfo.TailOf (m original : XcrushMatchInfo) : Prop :=
  ∃ diff, m = ⟨original.matchOffset + diff, original.chunkOffset + diff, original.matchLength - diff⟩ ∧
    diff ≤ original.matchLength ∧ (0 < original.matchLength → 0 < m.matchLength)

theorem optimizeMatches_returns {mem : Mem UInt8} {fst last prevMatchEnd : Nat}
    {origMatches : List XcrushMatchInfo} (h : ∀ m ∈ origMatches, m.Holds mem fst last)
    (short : last ≤ fst + 20000) :
    ∃ optMatches, xcrushOptimizeMatches prevMatchEnd origMatches = .ok optMatches ∧
      ∀ m ∈ optMatches, ∃ original ∈ origMatches, m.TailOf original := by
  -- the matches that are kept behind one that was taken or dropped
  have later {m : XcrushMatchInfo} {origMatches optMatches : List XcrushMatchInfo}
      (tails : ∀ x ∈ optMatches, ∃ original ∈ origMatches, x.TailOf original) :
      ∀ x ∈ optMatches, ∃ original ∈ m :: origMatches, x.TailOf original := by
    intro x member
    obtain ⟨original, got, tail⟩ := tails x member
    exact ⟨original, mem_cons_of_mem _ got, tail⟩
  induction origMatches generalizing prevMatchEnd with
  | nil => exact ⟨[], rfl, by simp⟩
  | cons m origMatches ih =>
    have others (prevMatchEnd : Nat) := @ih prevMatchEnd fun x member =>
      h x (mem_cons_of_mem _ member)
    have here := h m mem_cons_self
    have hi := here.first_le
    have lo := here.le_last
    rw [xcrushOptimizeMatches]
    split
    · split
      next =>
        dsimp only
        rw [if_neg (by omega), if_neg (by omega)]
        obtain ⟨rest, res, tails⟩ := others (m.matchLength - (prevMatchEnd - m.matchOffset) +
          (m.matchOffset + (prevMatchEnd - m.matchOffset)))
        rw [res]
        refine ⟨_, rfl, forall_mem_cons.mpr ⟨⟨m, mem_cons_self, _, rfl, ?_⟩, later tails⟩⟩
        dsimp only
        omega
      next =>
        obtain ⟨rest, res, tails⟩ := others prevMatchEnd
        exact ⟨rest, res, later tails⟩
    · obtain ⟨rest, res, tails⟩ := others (m.matchLength + m.matchOffset)
      rw [res]
      exact ⟨_, rfl, forall_mem_cons.mpr ⟨⟨m, mem_cons_self, 0, rfl, Nat.zero_le _, id⟩, later tails⟩⟩

/-! ## Tiling -/

def literalGaps (last : Nat) : Nat → List XcrushMatchInfo → List (Nat × Nat)
  | current, [] => [(current, last - current)]
  | current, m :: ms =>
      (current, m.matchOffset - current) :: literalGaps last (m.matchOffset + m.matchLength) ms

def coverCount (pieces : List (Nat × Nat)) (p : Nat) : Nat :=
  pieces.countP fun piece => piece.1 ≤ p ∧ p < piece.1 + piece.2

variable {mem : Mem UInt8} {last cur : Nat} {ms : List XcrushMatchInfo}

theorem coverCount_cons (piece : Nat × Nat) (pieces : List (Nat × Nat)) (p : Nat) :
    coverCount (piece :: pieces) p = coverCount pieces p + if piece.1 ≤ p ∧
    p < piece.1 + piece.2 then 1 else 0 := by
  rw [coverCount, countP_cons]
  simp only [coverCount, decide_eq_true_eq]

section
variable (ordered : Ordered mem last cur ms)
include ordered

theorem ordered_tiles (p : Nat) :
    coverCount (literalGaps last cur ms) p + coverCount
    (ms.map fun m => (m.matchOffset, m.matchLength)) p = if cur ≤ p ∧ p < last then 1 else 0 := by
  induction ordered with
  | nil _ =>
    rw [literalGaps, coverCount_cons]
    simp only [coverCount, countP_nil, map_nil]
    split <;> split <;> omega
  | cons h _ ih =>
    have hi := h.first_le
    have lo := h.le_last
    rw [literalGaps, coverCount_cons, map_cons, coverCount_cons]
    -- a byte is in the gap, in the match or behind both
    split at ih <;> split <;> split <;> split <;> omega

theorem ordered_apart : ms.Pairwise fun m m' => m.matchOffset + m.matchLength ≤ m'.matchOffset := by
  have st : ∀ {cur : Nat} {ms : List XcrushMatchInfo}, Ordered mem last cur ms →
      ∀ m ∈ ms, cur ≤ m.matchOffset := by
    intro cur ms ordered
    induction ordered with
    | nil => simp
    | cons h _ ih =>
      have hi := h.first_le
      exact forall_mem_cons.mpr ⟨hi, fun m member => by have := ih m member; omega⟩
  induction ordered with
  | nil => exact List.Pairwise.nil
  | cons _ tail ih => exact pairwise_cons.mpr ⟨st tail, ih⟩

theorem ordered_holds {fst : Nat} (le : fst ≤ cur) : ∀ m ∈ ms, m.Holds mem fst last := by
  induction ordered with
  | nil => simp
  | cons h _ ih =>
    have hi := h.first_le
    exact forall_mem_cons.mpr ⟨⟨by omega, h.le_last, h.same⟩, ih (by omega)⟩

theorem xcrushLiterals_gaps (lt : last < 2 ^ 32) {fst room : Nat}
    (short : last < fst + 2 ^ 16) (le : fst ≤ cur) {literals : List UInt8}
    (res : xcrushLiterals mem last room cur ms = .ok literals) :
    literals = (literalGaps last cur ms).flatMap fun gap => block mem gap.1 gap.2 := by
  induction ordered generalizing room literals with
  | nil inside =>
    rw [xcrushLiterals, sub32_of_le inside lt] at res
    split at res
    · cases res
    · cases res
      simp [literalGaps]
  | cons h _ ih =>
    have hi := h.first_le
    have lo := h.le_last
    obtain ⟨_, _, rfl, others⟩ := xcrushLiterals_cons res (by omega)
    rw [literalGaps, flatMap_cons, ih (by omega) others]

end

/-- Trimming returns matches that are in order and apart, each a tail of an original one; with the
gaps between them they cover the packet once, and they and the bytes of the gaps are the output. -/
theorem xcrush_parse_valid (xcrush : XcrushContext) (first : Nat)
    (originalMatches : List XcrushMatchInfo)
    (packet : first ≤ xcrush.historyOffset ∧ xcrush.historyOffset ≤ first + 20000 ∧
      xcrush.historyOffset < 2 ^ 32)
    (holds : ∀ m ∈ originalMatches, m.Holds xcrush.historyBuffer first xcrush.historyOffset) :
    ∃ optimizedMatches, xcrushOptimizeMatches 0 originalMatches = .ok optimizedMatches ∧
      (optimizedMatches.Pairwise fun m m' => m.matchOffset + m.matchLength ≤ m'.matchOffset) ∧
      (∀ m ∈ optimizedMatches, m.Holds xcrush.historyBuffer first xcrush.historyOffset ∧
        ∃ original ∈ originalMatches, m.TailOf original) ∧
      (∀ p, coverCount (literalGaps xcrush.historyOffset first optimizedMatches) p +
        coverCount (optimizedMatches.map fun m => (m.matchOffset, m.matchLength)) p =
          if first ≤ p ∧ p < xcrush.historyOffset then 1 else 0) ∧
      ∀ outputSize output, xcrushGenerateOutput xcrush outputSize first optimizedMatches = .ok output →
        output = leBytes 2 optimizedMatches.length ++ optimizedMatches.flatMap (matchDetails first) ++
          (literalGaps xcrush.historyOffset first optimizedMatches).flatMap fun gap =>
            block xcrush.historyBuffer gap.1 gap.2 := by
  obtain ⟨_, short, lt⟩ := packet
  obtain ⟨optimizedMatches, res, tails⟩ := @optimizeMatches_returns _ _ _ 0 _ holds short
  obtain ⟨ordered, -⟩ := optimizeMatches_spec 0 holds (by omega) res
  rw [Nat.max_zero] at ordered
  refine ⟨optimizedMatches, res, ordered_apart ordered,
    fun m member =>
      ⟨ordered_holds ordered (Nat.le_refl _) m member, tails m member⟩, ordered_tiles ordered, ?_⟩
  intro outputSize output gen
  unfold xcrushGenerateOutput at gen
  dsimp only at gen
  iterate 3
    split at gen
    · cases gen
  next _ written =>
    cases gen
    rw [xcrushLiterals_gaps ordered lt (by omega) (Nat.le_refl _) written]

/-- The theorem at a packet of 16 zeros, with two matches that overlap. -/
theorem xcrush_parse_valid_zeros :
    let xcrush := { xcrushContextNew true with historyOffset := 16 }
    ∃ optimizedMatches, xcrushOptimizeMatches 0 [⟨2, 0, 4⟩, ⟨3, 1, 13⟩] = .ok optimizedMatches ∧
      (optimizedMatches.Pairwise fun m m' => m.matchOffset + m.matchLength ≤ m'.matchOffset) ∧
      (∀ m ∈ optimizedMatches, m.Holds xcrush.historyBuffer 0 16 ∧
        ∃ original ∈ [⟨2, 0, 4⟩, ⟨3, 1, 13⟩], m.TailOf original) ∧
      (∀ p, coverCount (literalGaps 16 0 optimizedMatches) p +
        coverCount (optimizedMatches.map fun m => (m.matchOffset, m.matchLength)) p = if 0 ≤ p ∧
          p < 16 then 1 else 0) ∧
      ∀ outputSize output, xcrushGenerateOutput xcrush outputSize 0 optimizedMatches = .ok output →
        output = leBytes 2 optimizedMatches.length ++ optimizedMatches.flatMap (matchDetails 0) ++
          (literalGaps 16 0 optimizedMatches).flatMap fun gap =>
            block xcrush.historyBuffer gap.1 gap.2 :=
  xcrush_parse_valid { xcrushContextNew true with historyOffset := 16 } 0 [⟨2, 0, 4⟩, ⟨3, 1, 13⟩]
    (by decide)
      (by simpa using ⟨⟨by decide, by decide, fun _ _ => rfl⟩, by decide, by decide, fun _ _ => rfl⟩)

end KvmServer.Codec
