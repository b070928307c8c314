import KvmServer.Codec.XcrushMatch

/-! # Rebuilding the packet of level 1

The compressor's history `mem` already holds the whole packet.  The decompressor has rebuilt a prefix
of it; a match that looks back, or whose source lies behind the packet in bytes both sides have, adds
the next piece. -/

namespace KvmServer.Codec
open Lib List

/-! ## Copying -/

theorem xcrushCopyBytesNoOverlap_eq (mem : Mem UInt8) (diff rounds dst src rest : Nat)
    (dist : dst = src + diff ∨ src = dst + diff) (short : rest ≤ diff) :
    xcrushCopyBytesNoOverlap mem diff rounds dst src rest = lzCopy mem dst src
    (rounds * diff + rest) := by
  induction rounds generalizing mem dst src with
  | zero =>
    rw [xcrushCopyBytesNoOverlap, zero_mul, zero_add]
    exact blit_block_eq_lzCopy mem (by omega)
  | succ rounds ih =>
    rw [xcrushCopyBytesNoOverlap, ih _ _ _ (by omega), blit_block_eq_lzCopy mem (by omega),
      ← lzCopy_add, Nat.succ_mul, add_right_comm (rounds * diff) diff rest, add_comm diff]

theorem xcrushCopyBytes_eq (mem : Mem UInt8) (dst src num : Nat) :
    xcrushCopyBytes mem dst src num = lzCopy mem dst src num := by
  unfold xcrushCopyBytes
  split
  · exact blit_block_eq_lzCopy mem (by omega)
  split
  · have pos : 0 < (if dst > src then dst - src else src - dst) := by split <;> omega
    have dist : dst = src + (if dst > src then dst - src else src - dst) ∨
        src = dst + (if dst > src then dst - src else src - dst) := by
      split <;> omega
    have short := Nat.mod_lt num pos
    rw [xcrushCopyBytesNoOverlap_eq _ _ _ _ _ _ dist short.le, mul_comm, Nat.div_add_mod]
  · rename_i same
    rw [not_not.mp same, ← blit_block_eq_lzCopy mem (Or.inl le_rfl), blit_block]

/-- The blocks are those of a forward copy, byte by byte. -/
theorem xcrush_copy_bytes_forward (mem : Mem UInt8) (dst src num i : Nat) :
    xcrushCopyBytes mem dst src num i = lzCopy mem dst src num i := by
  rw [xcrushCopyBytes_eq]

/-! ## One match -/

/-- The decompressor `dec` can read the source as the compressor `enc` did: it lies before the
match, or behind the packet, which ends at `last`, in bytes that both have. -/
def SoundSource (enc dec : Mem UInt8) (last historyBufferSize : Nat) (m : XcrushMatchInfo) : Prop :=
  m.chunkOffset < m.matchOffset ∨
    last ≤ m.chunkOffset ∧ m.chunkOffset + m.matchLength < historyBufferSize ∧
      ∀ k, k < m.matchLength → enc (m.chunkOffset + k) = dec (m.chunkOffset + k)

/-- The decompressor has rebuilt the packet of `mem` from `first` up to `current`, on top of the
history `dec`. -/
structure Rebuilt (mem dec : Mem UInt8) (first current : Nat) (s : XcrushDecoder) : Prop where
  first_le : first ≤ current
  pointer_eq : s.historyPtr = current
  offset_eq : s.outputOffset = current - first
  memory_eq : s.historyBuffer = blit dec first (block mem first (current - first))

variable {first current last room a b : Nat} {mem : Mem UInt8} {ms : List XcrushMatchInfo}
  {enc xc : XcrushContext} {packet : List UInt8} {e : Int × XcrushContext} {status : Int}

theorem blit_block_add {α : Type} (dec mem : Mem α) {next : Nat} (le : first ≤ current)
    (le' : current ≤ next) :
    blit (blit dec first (block mem first (current - first))) current
        (block mem current (next - current)) = blit dec first (block mem first (next - first)) := by
  rw [show next - first = (current - first) + (next - current) by omega, block_add, blit_append,
    block_length, Nat.add_sub_cancel' le]

variable {dec : Mem UInt8} {literals : List UInt8} {l1 : XcrushL1} {c chunk : Nat}
  {signature : XcrushSignature}
  {s : XcrushSearch}

theorem agreeBelow_rebuilt (le : first ≤ current) (agree : AgreeBelow first mem dec) :
    AgreeBelow current mem (blit dec first (block mem first (current - first))) := by
  have all := agree.blit_next (block mem first (current - first))
  rw [blit_block, block_length, Nat.add_sub_cancel' le] at all
  exact all

section
variable {mem dec : Mem UInt8} {first current last size : Nat} {s : XcrushDecoder} {m : XcrushMatchInfo}

theorem lzCopy_of_sound (agree : AgreeBelow first mem dec) (hi : first ≤ m.matchOffset)
    (h : m.Holds mem current last) (sound : SoundSource mem dec last size m) :
    lzCopy (blit dec first (block mem first (m.matchOffset - first))) m.matchOffset
    m.chunkOffset m.matchLength =
      blit dec first (block mem first (m.matchOffset + m.matchLength - first)) := by
  have rebuilt := agreeBelow_rebuilt hi agree
  have reps : Repeats (blit dec first (block mem first (m.matchOffset - first))) m.matchOffset
      m.chunkOffset (block mem m.matchOffset m.matchLength) := by
    cases sound with
    | inl back => exact Repeats.congr_behind rebuilt back (repeats_block h.same)
    | inr ahead =>
      obtain ⟨_, -, common⟩ := ahead
      have inside := h.le_last
      -- the source is not touched while the packet is rebuilt
      have src : block mem m.matchOffset m.matchLength =
          block (blit dec first (block mem first (m.matchOffset - first)))
            m.chunkOffset m.matchLength := by
        apply block_ext
        intro k lo
        rw [blit_of_outside _ _ _ (by rw [block_length]; omega), ← common k lo, h.same k lo]
      rw [src]
      exact repeats_source (by omega)
  have copied := lzCopy_of_repeats reps
  rw [block_length] at copied
  rw [copied, ← blit_block_add dec mem hi (Nat.le_add_right m.matchOffset m.matchLength),
    Nat.add_sub_cancel_left]

theorem matchDetails_length (first : Nat) (m : XcrushMatchInfo) : (matchDetails first m).length = 8 := by
  simp [matchDetails]

theorem flatMap_matchDetails_length (first : Nat) (ms : List XcrushMatchInfo) :
    (ms.flatMap (matchDetails first)).length = 8 * ms.length := by
  induction ms with
  | nil => rfl
  | cons m ms ih =>
    rw [flatMap_cons, length_append, matchDetails_length, ih, length_cons]
    omega

theorem matchDetails_fields (len : m.matchLength < 2 ^ 16) (out : m.matchOffset - first < 2 ^ 16)
    (src : m.chunkOffset < 2 ^ 32) : leValue ((matchDetails first m).take 2) = m.matchLength ∧
      leValue (((matchDetails first m).drop 2).take 2) = m.matchOffset - first ∧
      leValue (((matchDetails first m).drop 4).take 4) = m.chunkOffset := by
  have lens := leValue_leBytes_of_lt (n := 2) len
  have outputs := leValue_leBytes_of_lt (n := 2) out
  have sources := leValue_leBytes_of_lt (n := 4) src
  unfold matchDetails
  refine ⟨?_, ?_, ?_⟩
  · rw [append_assoc, take_left' (leBytes_length _ _), lens]
  · rw [append_assoc, drop_left' (leBytes_length _ _), take_left' (leBytes_length _ _), outputs]
  rw [drop_left' (by rw [length_append, leBytes_length, leBytes_length]),
    take_of_length_le (by rw [leBytes_length]), sources]

theorem xcrushCopyLiterals_spec (inv : Rebuilt mem dec first current s) {next : Nat}
    (le : current ≤ next) (fits : next < size) {literals : List UInt8}
    (src : s.literals = block mem current (next - current) ++ literals) :
    ∃ s', xcrushCopyLiterals size (next - current) s = .ok s' ∧ Rebuilt mem dec first next s' ∧
    s'.literals = literals := by
  have enough : next - current ≤ s.literals.length := by
    rw [src, length_append, block_length]
    exact Nat.le_add_right _ _
  have hi := inv.first_le
  unfold xcrushCopyLiterals
  by_cases some : next - current > 0
  · rw [if_pos some, if_neg (by rw [inv.pointer_eq]; omega), src,
      take_left' (block_length _ _ _), drop_left' (block_length _ _ _)]
    refine ⟨_, rfl, ⟨by omega, ?_, ?_, ?_⟩, rfl⟩
    · dsimp only
      rw [inv.pointer_eq]
      omega
    · dsimp only
      rw [inv.offset_eq]
      omega
    rw [inv.memory_eq, inv.pointer_eq, blit_block_add dec mem hi le]
  have here : next = current := by omega
  subst here
  rw [if_neg some]
  rw [Nat.sub_self] at src
  exact ⟨s, rfl, inv, src⟩

theorem xcrushDecompressMatch_spec (inv : Rebuilt mem dec first current s)
    (agree : AgreeBelow first mem dec) (h : m.Holds mem current last)
    (sound : SoundSource mem dec last size m) (fits : last < size) (le : size ≤ 2000000)
    (short : last - first < 2 ^ 16) {literals : List UInt8}
    (src : s.literals = block mem current (m.matchOffset - current) ++ literals) :
    ∃ s', xcrushDecompressMatch size (matchDetails first m) s = .ok s' ∧
      Rebuilt mem dec first (m.matchOffset + m.matchLength) s' ∧ s'.literals = literals := by
  have hi := inv.first_le
  have after := h.first_le
  have pre := h.le_last
  have reach : m.chunkOffset + m.matchLength < size := by
    cases sound with
    | inl _ => omega
    | inr ahead => exact ahead.2.1
  obtain ⟨len, out, chunk⟩ := @matchDetails_fields first m (by omega) (by omega) (by omega)
  have off := inv.offset_eq
  have gap : m.matchOffset - first - s.outputOffset = m.matchOffset - current := by omega
  obtain ⟨_, copied, inv₁, rest⟩ :=
    @xcrushCopyLiterals_spec mem dec first current size s inv m.matchOffset after (by omega) literals src
  have ptr := inv₁.pointer_eq
  unfold xcrushDecompressMatch
  rw [len, out, chunk]
  rw [if_neg (by omega), if_neg (by omega), if_neg (by omega), if_neg (by omega), gap, copied]
  dsimp only
  rw [if_neg (by omega)]
  refine ⟨_, rfl, ⟨by omega, by dsimp only; omega, ?_, ?_⟩, rest⟩
  · dsimp only
    rw [inv₁.offset_eq]
    omega
  rw [xcrushCopyBytes_eq, inv₁.memory_eq, ptr, lzCopy_of_sound agree (by omega) h sound]

theorem xcrushLiterals_cons {literals : List UInt8}
    (res : xcrushLiterals mem last room current (m :: ms) = .ok literals)
    (len : m.matchLength < 2 ^ 16) :
    ∃ room' rest, literals = block mem current (m.matchOffset - current) ++ rest ∧
      xcrushLiterals mem last room' (m.matchOffset + m.matchLength) ms = .ok rest := by
  rw [xcrushLiterals, Nat.mod_eq_of_lt len] at res
  dsimp only at res
  split at res
  · split at res
    · cases res
    rename_i here
    rw [not_not.mp here, Nat.sub_self]
    rw [not_not.mp here] at res
    exact ⟨room, literals, rfl, res⟩
  split at res
  · cases res
  split at res
  · cases res
  rename_i rest tail
  cases res
  exact ⟨_, rest, rfl, tail⟩

theorem xcrushDecompressMatches_spec (agree : AgreeBelow first mem dec)
    (fits : last < size) (le : size ≤ 2000000)
    (short : last - first < 2 ^ 16) (ordered : Ordered mem last current ms)
    (sound : ∀ m ∈ ms, SoundSource mem dec last size m) (inv : Rebuilt mem dec first current s)
    (literals : xcrushLiterals mem last room current ms = .ok s.literals) (tail : List UInt8) :
    ∃ s' current', xcrushDecompressMatches size ms.length (ms.flatMap (matchDetails first) ++ tail) s =
        .ok s' ∧ Rebuilt mem dec first current' s' ∧ current' ≤ last ∧
        s'.literals = block mem current' (last - current') := by
  induction ordered generalizing s room with
  | nil inside =>
    rename_i current
    rw [xcrushLiterals, sub32_of_le inside (by omega)] at literals
    split at literals
    · cases literals
    · exact ⟨s, current, rfl, inv, inside, (Except.ok.inj literals).symm⟩
  | cons h _ ih =>
    rename_i current m ms _
    have hi := inv.first_le
    have inside := h.le_last
    have after := h.first_le
    obtain ⟨_, _, src, next⟩ := xcrushLiterals_cons literals (by omega)
    obtain ⟨_, step, inv₁, left⟩ :=
      xcrushDecompressMatch_spec inv agree h (sound m mem_cons_self) fits le short src
    rw [← left] at next
    rw [flatMap_cons, append_assoc, length_cons, xcrushDecompressMatches,
      take_left' (matchDetails_length _ _), drop_left' (matchDetails_length _ _), step]
    exact ih (fun x member => sound x (mem_cons_of_mem _ member)) inv₁ next

theorem trailingLiterals_spec (inv : Rebuilt mem dec first current s) (inside : current ≤ last)
    (fits : last < size) (literals : s.literals = block mem current (last - current)) :
    ∃ s', xcrushTrailingLiterals size s = .ok s' ∧
    Rebuilt mem dec first last { s' with outputOffset := last - first } := by
  have hi := inv.first_le
  have len : s.literals.length = last - current := by rw [literals, block_length]
  have ptr := inv.pointer_eq
  unfold xcrushTrailingLiterals
  by_cases some : s.literals.length > 0
  · rw [if_pos some, if_neg (by omega)]
    refine ⟨_, rfl, ⟨by omega, by dsimp only; omega, rfl, ?_⟩⟩
    rw [inv.memory_eq, ptr, literals, blit_block_add dec mem hi inside]
  have here : current = last := by omega
  subst here
  rw [if_neg some]
  exact ⟨s, rfl, ⟨hi, ptr, rfl, inv.memory_eq⟩⟩

end

/-! ## A whole packet -/

structure XcrushHistories (enc dec : XcrushContext) : Prop where
  compressor : enc.historyBufferSize = 2000000
  decompressor : dec.historyBufferSize = 2000000
  together : enc.historyOffset = 2000001 ∨ enc.historyOffset = dec.historyOffset ∧
    enc.historyOffset ≤ 2000000 ∧ AgreeBelow enc.historyOffset enc.historyBuffer dec.historyBuffer

theorem xcrushExpandL1_raw {flags size : Nat} (raw : flags &&& L1_NO_COMPRESSION ≠ 0)
    (packet : List UInt8) (enc dec : Mem UInt8) (fits : first + packet.length < size) :
    ∃ s, xcrushExpandL1 size flags packet dec first = .ok s ∧ s.historyPtr = first + packet.length ∧
      s.historyBuffer = blit dec first (block (blit enc first packet) first packet.length) := by
  have st : Rebuilt (blit enc first packet) dec first first ⟨dec, first, packet, 0⟩ :=
    ⟨le_rfl, rfl, by rw [Nat.sub_self], by rw [Nat.sub_self]; rfl⟩
  obtain ⟨s, done, inv⟩ := trailingLiterals_spec st (Nat.le_add_right first packet.length) fits
    (by dsimp only; rw [Nat.add_sub_cancel_left, block_blit])
  have memory := inv.memory_eq
  rw [Nat.add_sub_cancel_left] at memory
  exact ⟨s, by rw [xcrushExpandL1, if_pos raw, done], inv.pointer_eq, memory⟩

theorem xcrushExpandL1_matches {flags size : Nat} (notRaw : flags &&& L1_NO_COMPRESSION = 0)
    (compressed : flags &&& L1_COMPRESSED ≠ 0)
    (agree : AgreeBelow first mem dec) (fits : last < size)
    (le : size ≤ 2000000) (short : last - first < 2 ^ 16) (ordered : Ordered mem last first ms)
    (sound : ∀ m ∈ ms, SoundSource mem dec last size m) (few : ms.length < 2 ^ 16)
    (rest : xcrushLiterals mem last room first ms = .ok literals) : ∃ s, xcrushExpandL1 size flags
        (leBytes 2 ms.length ++ ms.flatMap (matchDetails first) ++ literals) dec first = .ok s ∧
      s.historyPtr = last ∧ s.historyBuffer = blit dec first (block mem first (last - first)) := by
  have count : leValue (leBytes 2 ms.length) = ms.length := leValue_leBytes_of_lt few
  have details := flatMap_matchDetails_length first ms
  have st : Rebuilt mem dec first first ⟨dec, first, literals, 0⟩ :=
    ⟨le_rfl, rfl, by rw [Nat.sub_self], by rw [Nat.sub_self]; rfl⟩
  obtain ⟨_, _, loop, inv₁, pre, left⟩ :=
    xcrushDecompressMatches_spec agree fits le short ordered sound st rest literals
  obtain ⟨s, done, inv⟩ := trailingLiterals_spec inv₁ pre fits left
  refine ⟨s, ?_, inv.pointer_eq, inv.memory_eq⟩
  generalize dataEq : leBytes 2 ms.length ++ ms.flatMap (matchDetails first) ++ literals = data
  have split : data = leBytes 2 ms.length ++ (ms.flatMap (matchDetails first) ++ literals) := by
    rw [← dataEq, append_assoc]
  have len : data.length = 2 + 8 * ms.length + literals.length := by
    rw [← dataEq, length_append, length_append, leBytes_length, details]
  have head : leValue (data.take 2) = ms.length := by
    rw [split, take_left' (leBytes_length _ _), count]
  have body : data.drop 2 = ms.flatMap (matchDetails first) ++ literals := by
    rw [split, drop_left' (leBytes_length _ _)]
  have tail : data.drop (2 + 8 * ms.length) = literals := by
    rw [← dataEq, drop_left' (by rw [length_append, leBytes_length, details])]
  rw [xcrushExpandL1, if_neg (not_not.mpr notRaw), if_neg compressed, if_neg (by omega)]
  rw [head, if_neg (by omega), body, tail, loop]
  exact done

theorem xcrushLiterals_length_lt (res : xcrushLiterals mem last room current ms = .ok literals) :
    literals.length < room := by
  fun_induction xcrushLiterals mem last room current ms generalizing literals with
  | case1 => cases res
  | case2 =>
    cases res
    rw [block_length]
    omega
  | case3 => cases res
  | case4 =>
    rename_i ih
    exact ih res
  | case5 => cases res
  | case6 => cases res
  | case7 =>
    rename_i _ _ tail ih
    cases res
    have := ih tail
    rw [length_append, block_length]
    omega

theorem xcrushCompressL1_spec (res : xcrushCompressL1 enc packet = .ok l1) :
    (xcrushAppend enc packet).SameHistory l1.xcrush ∧
      ∃ front, front = (if enc.historyOffset + packet.length + 8 > enc.historyBufferSize then
        L1_PACKET_AT_FRONT else 0) ∧ (l1.flags = front ||| L1_NO_COMPRESSION ∧ l1.data = packet ∨
        l1.flags = front ||| L1_COMPRESSED ∧ ∃ room literals,
          xcrushLiterals (xcrushAppend enc packet).historyBuffer (xcrushAppend enc packet).historyOffset
            room (xcrushPacketStart enc packet.length) l1.optimizedMatches = .ok literals ∧
          l1.data = leBytes 2 l1.optimizedMatches.length ++
            l1.optimizedMatches.flatMap (matchDetails (xcrushPacketStart enc packet.length)) ++
            literals ∧ l1.data.length < packet.length ∧
          Ordered (xcrushAppend enc packet).historyBuffer (xcrushAppend enc packet).historyOffset
            (xcrushPacketStart enc packet.length) l1.optimizedMatches) := by
  unfold xcrushCompressL1 at res
  dsimp only at res
  split at res
  · cases res
  · rename_i got
    cases res
    exact ⟨(xcrushMatches_spec got).1, _, rfl, Or.inl ⟨rfl, rfl⟩⟩
  rename_i _ _ _ got
  obtain ⟨same, ordered, -⟩ := xcrushMatches_spec got
  split at res
  · cases res
  rename_i data gen
  cases res
  refine ⟨same, _, rfl, Or.inr ⟨rfl, ?_⟩⟩
  unfold xcrushGenerateOutput at gen
  dsimp only at gen
  split at gen
  · cases gen
  split at gen
  · cases gen
  split at gen
  · cases gen
  rename_i _ _ literals written
  cases gen
  have short := xcrushLiterals_length_lt written
  rw [same.memory_eq, same.offset_eq] at written
  refine ⟨_, literals, written, rfl, ?_, ordered⟩
  rw [length_append, length_append, leBytes_length, flatMap_matchDetails_length]
  omega

theorem xcrushCompressL1_short (res : xcrushCompressL1 enc packet = .ok l1)
    (short : packet.length < 128) : l1.optimizedMatches = [] := by
  have none : xcrushMatches (xcrushAppend enc packet) (xcrushPacketStart enc packet.length) packet =
      .ok (xcrushAppend enc packet, []) := by
    unfold xcrushMatches
    rw [xcrushComputeSignatures, if_pos short]
    split <;> rfl
  unfold xcrushCompressL1 at res
  dsimp only at res
  rw [none] at res
  cases res
  rfl

/-! ## Failing

Every way to fail has a negative code, so success means that level 1 went through. -/

theorem findMatchLength_error {d e : Nat}
    (fail : xcrushFindMatchLength xc a b c d e = .error status) : status < 0 := by
  unfold xcrushFindMatchLength at fail
  dsimp only at fail
  repeat' split at fail
  all_goals cases fail
  all_goals decide

theorem findNextMatchingChunk_error (fail : xcrushFindNextMatchingChunk xc chunk = .error status) :
    status < 0 := by
  unfold xcrushFindNextMatchingChunk at fail
  dsimp only at fail
  repeat' split at fail
  all_goals cases fail
  all_goals decide

theorem xcrushInsertChunk_error {off : Nat} {prevChunk : Option Nat}
    (fail : xcrushInsertChunk xc signature off prevChunk = .error e) : e.1 < 0 := by
  unfold xcrushInsertChunk at fail
  extract_lets at fail
  split at fail
  · cases fail
    exact (by decide : (-3001 : Int) < 0)
  split at fail
  · cases fail
    exact (by decide : (-3003 : Int) < 0)
  · cases fail

theorem xcrushWalkChunks_error {more : Nat} {best : XcrushMatchInfo}
    (fail : xcrushWalkChunks xc a b c more chunk best = .error status) : status < 0 := by
  fun_induction xcrushWalkChunks xc a b c more chunk best with
  | case1 _ _ _ chunkOff got _ err =>
    cases fail
    unfold got at err
    split at err
    · exact findMatchLength_error err
    · cases err
  | case2 => cases fail
  | case3 => cases fail
  | case4 =>
    cases fail
    rename_i err
    exact findNextMatchingChunk_error err
  | case5 => cases fail
  | case6 =>
    rename_i ih
    exact ih fail

theorem xcrushFindMatch_error (fail : xcrushFindMatch a b signature s = .error e) : e.1 < 0 := by
  unfold xcrushFindMatch at fail
  dsimp only at fail
  split at fail
  · rename_i err
    cases fail
    exact xcrushInsertChunk_error err
  · cases fail
  split at fail
  · split at fail
    · rename_i err
      cases fail
      exact xcrushWalkChunks_error err
    repeat' split at fail
    all_goals cases fail
    · exact (by decide : (-1002 : Int) < 0)
    · exact (by decide : (-1003 : Int) < 0)
  · cases fail

theorem findAllMatches_error {signatures : List XcrushSignature}
    (fail : xcrushFindAllMatches a b signatures s = .error e) : e.1 < 0 := by
  induction signatures generalizing s with
  | nil =>
    rw [xcrushFindAllMatches] at fail
    split at fail
    · cases fail
      exact (by decide : (-1005 : Int) < 0)
    · cases fail
  | cons _ signatures ih =>
    rw [xcrushFindAllMatches] at fail
    split at fail
    · cases fail
      exact (by decide : (-1001 : Int) < 0)
    split at fail
    · rename_i err
      cases fail
      exact xcrushFindMatch_error err
    dsimp only at fail
    split at fail
    · cases fail
      exact (by decide : (-1004 : Int) < 0)
    · exact ih fail

theorem optimizeMatches_error {prevMatchEnd : Nat}
    (fail : xcrushOptimizeMatches prevMatchEnd ms = .error status) : status < 0 := by
  fun_induction xcrushOptimizeMatches prevMatchEnd ms with
  | case1 => cases fail
  | case5 => cases fail
  | case8 => cases fail
  | case2 | case3 =>
    cases fail
    decide
  | case4 | case7 =>
    rename_i err ih
    cases fail
    exact ih err
  | case6 =>
    rename_i ih
    exact ih fail

theorem xcrushLiterals_error (fail : xcrushLiterals mem last room current ms = .error status) :
    status < 0 := by
  fun_induction xcrushLiterals mem last room current ms with
  | case1 | case3 | case5 =>
    cases fail
    decide
  | case2 => cases fail
  | case7 => cases fail
  | case4 =>
    rename_i ih
    exact ih fail
  | case6 =>
    rename_i err ih
    cases fail
    exact ih err

theorem xcrushCompressL1_error (fail : xcrushCompressL1 enc packet = .error e) : e.1 < 0 := by
  unfold xcrushCompressL1 at fail
  dsimp only at fail
  split at fail
  · rename_i err
    cases fail
    unfold xcrushMatches at err
    split at err
    · split at err
      · cases err
      split at err
      · rename_i inner
        cases err
        exact findAllMatches_error inner
      split at err
      · rename_i inner
        cases err
        exact optimizeMatches_error inner
      · cases err
    · cases err
  · cases fail
  split at fail
  · rename_i err
    cases fail
    unfold xcrushGenerateOutput at err
    dsimp only at err
    split at err
    · cases err
      exact (by decide : (-6001 : Int) < 0)
    split at err
    · cases err
      exact (by decide : (-6002 : Int) < 0)
    split at err
    · rename_i inner
      cases err
      exact xcrushLiterals_error inner
    · cases err
  · cases fail

end KvmServer.Codec
