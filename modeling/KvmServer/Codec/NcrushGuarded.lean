import KvmServer.Codec.NcrushDecoder
import KvmServer.Lib.Guarded

/-! # The accesses of `ncrush_decompress`

`ncrush_decompress` once more, with every access to the packet and to the history checked, the shifts of
`NCrushFetchBits` checked, and a record of every match that is executed.  `SrcPtr` is an offset into
the packet. -/

namespace KvmServer.Codec
open Lib List Nat

/-! ## The guarded decompressor -/

structure NcrushReader where
  srcPtr : Nat
  nbits : Int
  bits : Nat

structure NcrushCopied where
  before : Mem UInt8
  (historyPtr copyOffset lengthOfMatch : Nat)
  after : Mem UInt8
  nextPtr : Nat

section Guarded
variable (pSrcData : List UInt8)
variable (r : NcrushReader)

def ncrushGuardedFetch : Except Fault (Option NcrushReader) :=
  let srcEnd := pSrcData.length
  if r.nbits < 16 then
    if r.srcPtr + 1 ≥ srcEnd then
      if r.srcPtr ≥ srcEnd then
        if r.nbits < 0 then .ok none else .ok (some r)
      else do
        let src ← readAt srcEnd (listMem 0 pSrcData) r.srcPtr
        let val ← shiftLeftAt src.toNat r.nbits
        return some ⟨r.srcPtr + 1, r.nbits + 8, (r.bits + val) % 2 ^ 32⟩
    else do
      let low ← readAt srcEnd (listMem 0 pSrcData) r.srcPtr
      let high ← readAt srcEnd (listMem 0 pSrcData) (r.srcPtr + 1)
      let val ← shiftLeftAt (low.toNat ||| ((high.toNat <<< 8) &&& 0xFF00)) r.nbits
      return some ⟨r.srcPtr + 2, r.nbits + 16, (r.bits + val) % 2 ^ 32⟩
  else .ok (some r)

def ncrushGuardedSkip (length : Nat) : Except Fault (Option NcrushReader) :=
  ncrushGuardedFetch pSrcData { r with bits := r.bits >>> length, nbits := r.nbits - length }

def ncrushGuardedReadExtra (bits base : Nat) : Except Fault (Option (Nat × NcrushReader)) :=
  if bits ≠ 0 then
    let idx := 2 * bits + 3
    if idx ≥ huffTableMask.length then .ok none
    else
      let maskedBits := r.bits &&& getWord huffTableMask idx
      do
        let skipped ← ncrushGuardedSkip pSrcData r bits
        return skipped.map fun r => (base + maskedBits, r)
  else .ok (some (base, r))

def ncrushGuardedReadLength : Except Fault (Option (Nat × NcrushReader)) :=
  let maskedBits := r.bits &&& getWord huffTableMask 21
  if maskedBits ≥ 512 then .ok none
  else
    let lengthOfMatch := huffTableLOM maskedBits &&& 0xFFF
    let bitLength := huffTableLOM maskedBits >>> 12
    do
      match ← ncrushGuardedSkip pSrcData r bitLength with
      | none => return none
      | some r =>
        if lengthOfMatch ≥ lomBitsLUT.length ∨ lengthOfMatch ≥ lomBaseLUT.length then return none
        else ncrushGuardedReadExtra pSrcData r (lomBitsLUT.getD lengthOfMatch 0) (lomBaseLUT.getD lengthOfMatch 0)

def ncrushGuardedReadCopy (cache : OffsetCache) (indexLEC : Nat) :
    Except Fault (Except Int (Nat × Nat × NcrushReader × OffsetCache)) :=
  let copyOffsetIndex := indexLEC - 257
  if copyOffsetIndex ≥ 32 then
    let offsetCacheIndex := indexLEC - 289
    if offsetCacheIndex ≥ 4 then .ok (.error (-1004))
    else do
      match ← ncrushGuardedReadLength pSrcData r with
      | none => return .error (-1)
      | some (length, r) =>
          return .ok (cache.get offsetCacheIndex, length, r, cache.swap offsetCacheIndex)
  else do
    match ← ncrushGuardedReadExtra pSrcData r (copyOffsetBitsLUT.getD copyOffsetIndex 0)
        (copyOffsetBaseLUT.getD copyOffsetIndex 0) with
    | none => return .error (-1)
    | some (tmp, r) =>
      if tmp < 1 then return .error (-1)
      else
        match ← ncrushGuardedReadLength pSrcData r with
        | none => return .error (-1)
        | some (length, r) => return .ok (tmp - 1, length, r, cache.push (tmp - 1))

end Guarded

def ncrushHistorySize : Nat := 65536

def cyclicCopyAt (size : Nat) (mem : Mem UInt8) (dst base period index : Nat) :
    Nat → Except Fault (Mem UInt8)
  | 0 => .ok mem
  | n + 1 => do
    let index := if index ≥ period then 0 else index
    let x ← readAt size mem (base + index)
    let mem ← writeAt size mem dst x
    cyclicCopyAt size mem (dst + 1) base period (index + 1) n

def ncrushGuardedCopy (mem : Mem UInt8) (historyBufferEnd historyPtr copyOffset lengthOfMatch : Nat) :
    Except Fault (Mem UInt8 × Nat) :=
  let copyLength := if lengthOfMatch > copyOffset then copyOffset else lengthOfMatch
  if historyPtr ≥ copyOffset then do
    let copyOffsetPtr := historyPtr - copyOffset
    let mem ← copyAt ncrushHistorySize mem historyPtr copyOffsetPtr copyLength
    let mem ← cyclicCopyAt ncrushHistorySize mem (historyPtr + copyLength)
      (copyOffsetPtr + copyLength) copyOffset 0
      (lengthOfMatch - copyOffset)
    return (mem, historyPtr + copyLength + (lengthOfMatch - copyOffset))
  else do
    let copyOffsetPtr := historyBufferEnd - (copyOffset - historyPtr) + 1
    let copied := min copyLength (historyBufferEnd + 1 - copyOffsetPtr)
    let mem ← copyAt ncrushHistorySize mem historyPtr copyOffsetPtr copied
    let mem ← cyclicCopyAt ncrushHistorySize mem (historyPtr + copied) 0 copyOffset 0
      (lengthOfMatch - copyOffset)
    return (mem, historyPtr + copied + (lengthOfMatch - copyOffset))

structure NcrushGuardedDecoder where
  src : NcrushReader
  historyBuffer : Mem UInt8
  historyPtr : Nat
  offsetCache : OffsetCache
  copies : List NcrushCopied

inductive NcrushGuardedRound where
  | next (s : NcrushGuardedDecoder)
  | done (s : NcrushGuardedDecoder)
  | fail (code : Int) (s : NcrushGuardedDecoder)

def ncrushGuardedMatch (historyBufferEnd : Nat) (s : NcrushGuardedDecoder)
    (copyOffset lengthOfMatch : Nat) :
    Except Fault NcrushGuardedRound :=
  if lengthOfMatch < 2 then .ok (.fail (-1005) s)
  else if (s.historyPtr + 2 ^ 64 - copyOffset) &&& 0xFFFF ≥ historyBufferEnd - lengthOfMatch ∨
      s.historyPtr ≥ historyBufferEnd - lengthOfMatch then .ok (.fail (-1006) s)
  else do
    let copied ← ncrushGuardedCopy s.historyBuffer historyBufferEnd s.historyPtr copyOffset lengthOfMatch
    return .next { s with
      historyBuffer := copied.1
      historyPtr := copied.2
      copies :=
        ⟨s.historyBuffer, s.historyPtr, copyOffset, lengthOfMatch, copied.1, copied.2⟩ :: s.copies }

def ncrushGuardedSymbol (pSrcData : List UInt8) (historyBufferEnd entry : Nat)
    (s : NcrushGuardedDecoder) :
    Except Fault NcrushGuardedRound :=
  let indexLEC := entry &&& 0xFFF
  if indexLEC < 256 then
    if s.historyPtr ≥ historyBufferEnd then .ok (.fail (-1003) s)
    else do
      let historyBuffer ← writeAt ncrushHistorySize s.historyBuffer s.historyPtr
        (UInt8.ofNat (entry &&& 0xFF))
      return .next { s with historyBuffer := historyBuffer, historyPtr := s.historyPtr + 1 }
  else if indexLEC = 256 then .ok (.done s)
  else do
    match ← ncrushGuardedReadCopy pSrcData s.src s.offsetCache indexLEC with
    | .error code => return .fail code s
    | .ok (copyOffset, lengthOfMatch, src, offsetCache) =>
      ncrushGuardedMatch historyBufferEnd
        { s with src := src, offsetCache := offsetCache } copyOffset lengthOfMatch

def ncrushGuardedStep (pSrcData : List UInt8) (historyBufferEnd : Nat) (s : NcrushGuardedDecoder) :
    Except Fault NcrushGuardedRound :=
  let maskedBits := s.src.bits &&& getWord huffTableMask 29
  if maskedBits ≥ 8192 then .ok (.fail (-1) s)
  else do
    match ← ncrushGuardedSkip pSrcData s.src (huffTableLEC maskedBits >>> 12) with
    | none => return .fail (-1) s
    | some src =>
        ncrushGuardedSymbol pSrcData historyBufferEnd (huffTableLEC maskedBits) { s with src := src }

def ncrushGuardedLoop (pSrcData : List UInt8) (historyBufferEnd : Nat) :
    Nat → NcrushGuardedDecoder → Except Fault (NcrushGuardedDecoder × Int)
  | 0, _ => .error .endless
  | fuel + 1, s => do
    match ← ncrushGuardedStep pSrcData historyBufferEnd s with
    | .next s' => ncrushGuardedLoop pSrcData historyBufferEnd fuel s'
    | .done s' => return (s', 1)
    | .fail code s' => return (s', code)

variable (ncrush : NcrushContext)

def ncrushGuardedHistory (pSrcData : List UInt8) :
    Except Fault (List NcrushCopied × NcrushDecompressed) :=
  if pSrcData.length < 4 then .ok ([], { ncrush := ncrush, status := -1, dstData := [] })
  else do
    let b0 ← readAt pSrcData.length (listMem 0 pSrcData) 0
    let b1 ← readAt pSrcData.length (listMem 0 pSrcData) 1
    let b2 ← readAt pSrcData.length (listMem 0 pSrcData) 2
    let b3 ← readAt pSrcData.length (listMem 0 pSrcData) 3
    let bits := b0.toNat ||| b1.toNat <<< 8 ||| b2.toNat <<< 16 ||| b3.toNat <<< 24
    let result ← ncrushGuardedLoop pSrcData ncrush.historyEndOffset (ncrush.historyEndOffset + 2)
      ⟨⟨4, 32, bits⟩, ncrush.historyBuffer, ncrush.historyPtr, ncrush.offsetCache, []⟩
    let left := { ncrush with
      historyBuffer := result.1.historyBuffer, offsetCache := result.1.offsetCache }
    if result.2 ≠ 1 then return (result.1.copies, { ncrush := left, status := result.2, dstData := [] })
    else if ncrush.historyBufferFence ≠ 0xABABABAB then
      return (result.1.copies, { ncrush := left, status := -1007, dstData := [] })
    else
      return (result.1.copies,
        { ncrush := { left with historyPtr := result.1.historyPtr }
          status := 1
          dstData :=
            block result.1.historyBuffer ncrush.historyPtr (result.1.historyPtr - ncrush.historyPtr) })

/-- `MoveMemory` from the 32K before `HistoryPtr` to the front, `ZeroMemory` of the upper half. -/
def ncrushGuardedMove : Except Fault NcrushContext :=
  if 32768 ≤ ncrush.historyPtr ∧
    ncrush.historyPtr ≤ ncrushHistorySize then .ok (ncrushMoveDecoderWindow ncrush)
  else .error .outside

def ncrushGuardedFlags (flags : Nat) : Except Fault NcrushContext := do
  let moved ← if flags &&& PACKET_AT_FRONT ≠ 0 then ncrushGuardedMove ncrush else .ok ncrush
  if flags &&& PACKET_FLUSHED ≠ 0 then do
    let historyBuffer ← clearAt ncrushHistorySize ncrushHistorySize moved.historyBuffer
    return { moved with
      historyPtr := 0, historyBuffer := historyBuffer, offsetCache := OffsetCache.zero }
  else .ok moved

def ncrushGuardedDecompress (pSrcData : List UInt8) (flags : Nat) :
    Except Fault (List NcrushCopied × NcrushDecompressed) :=
  if ncrush.historyEndOffset ≠ 65535 then .ok ([], { ncrush := ncrush, status := -1001, dstData := [] })
  else if flags &&& PACKET_AT_FRONT ≠ 0 ∧ ncrush.historyPtr ≤ 32768 then
    .ok ([], { ncrush := ncrush, status := -1002, dstData := [] })
  else do
    let ncrush ← ncrushGuardedFlags ncrush flags
    if flags &&& PACKET_COMPRESSED =
      0 then return ([], { ncrush := ncrush, status := 1, dstData := pSrcData })
    else ncrushGuardedHistory ncrush pSrcData

/-! ## Code lengths

The entries of the tables are 16-bit numbers with the length of the code in the upper four bits. -/

theorem shiftRight_le_of_lt {x : Nat} (lt : x < 2 ^ 16) : x >>> 12 ≤ 15 := by
  omega

theorem huffTableLOM_length (i : Nat) : huffTableLOM i >>> 12 ≤ 15 :=
  shiftRight_le_of_lt (mod_lt _ (Nat.two_pow_pos 16))

theorem huffTableLEC_length (i : Nat) : huffTableLEC i >>> 12 ≤ 15 := by
  unfold huffTableLEC
  split
  next =>
    split
    · exact (by decide : ∀ k < 4, [0xD0AB, 0xD101, 0xD100, 0xD125].getD k 0 >>> 12 ≤ 15) _ (by omega)
    · exact shiftRight_le_of_lt (mod_lt _ (Nat.two_pow_pos 16))
  · decide

/-! ## Reading the packet -/

section Reader
variable {pSrcData : List UInt8} {r : NcrushReader}

def NcrushReader.source (pSrcData : List UInt8) (r : NcrushReader) : NCrushSource :=
  ⟨pSrcData.drop r.srcPtr, r.nbits, r.bits⟩

def NcrushReader.Ready (pSrcData : List UInt8) (r : NcrushReader) : Prop :=
  16 ≤ r.nbits ∨ pSrcData.length ≤ r.srcPtr

def Follows {α : Type} (pSrcData : List UInt8) (guarded : Except Fault (Option (α × NcrushReader)))
    (plain : Option (α × NCrushSource)) : Prop :=
  ∃ result, guarded = .ok result ∧ plain = result.map (fun read => (read.1, read.2.source pSrcData)) ∧
    ∀ value r, result = some (value, r) → r.Ready pSrcData

theorem drop_eq_getD_cons {l : List UInt8} {i : Nat} (inside : i < l.length) :
    l.drop i = l.getD i 0 :: l.drop (i + 1) := by
  rw [drop_eq_getElem_cons inside, getD_eq_getElem l 0 inside]

theorem ncrushGuardedFetch_spec (count : 0 ≤ r.nbits ∨ pSrcData.length ≤ r.srcPtr) :
    ∃ result, ncrushGuardedFetch pSrcData r = .ok result ∧
      nCrushFetchBits (r.source pSrcData) = result.map (NcrushReader.source pSrcData) ∧
      ∀ r', result = some r' → r'.Ready pSrcData := by
  unfold ncrushGuardedFetch nCrushFetchBits NcrushReader.source
  by_cases few : r.nbits < 16
  · rw [if_pos few, if_pos few]
    by_cases used : r.srcPtr ≥ pSrcData.length
    · rw [if_pos (show r.srcPtr + 1 ≥ pSrcData.length by omega), if_pos used, drop_eq_nil_of_le used]
      by_cases neg : r.nbits < 0
      · refine ⟨none, if_pos neg, if_pos neg, ?_⟩
        intro r' got
        cases got
      refine ⟨some r, if_neg neg, ?_, ?_⟩
      · simp only [if_neg neg, Option.map_some, drop_eq_nil_of_le used]
      intro r' got
      cases got
      exact .inr used
    have pos : 0 ≤ r.nbits := by omega
    have inside : r.srcPtr < pSrcData.length := not_le.mp used
    by_cases last : r.srcPtr + 1 ≥ pSrcData.length
    · refine ⟨some ⟨r.srcPtr + 1, r.nbits + 8,
        (r.bits + (pSrcData.getD r.srcPtr 0).toNat <<< r.nbits.toNat % 2 ^ 32) % 2 ^ 32⟩, ?_, ?_, ?_⟩
      · rw [if_pos last, if_neg used, readAt_ok inside, ok_bind, shiftLeftAt_ok pos (by omega), ok_bind]
        rfl
      · rw [drop_eq_getD_cons inside, drop_eq_nil_of_le last, add_mod_mod]
        simp only [Option.map_some, drop_eq_nil_of_le last]
      intro r' got
      cases got
      exact .inr last
    have next : r.srcPtr + 1 < pSrcData.length := not_le.mp last
    refine ⟨some ⟨r.srcPtr + 2, r.nbits + 16, (r.bits + ((pSrcData.getD r.srcPtr 0).toNat |||
      (((pSrcData.getD (r.srcPtr + 1) 0).toNat <<< 8) &&& 0xFF00)) <<< r.nbits.toNat % 2 ^ 32) %
        2 ^ 32⟩, ?_, ?_, ?_⟩
    · rw [if_neg last, readAt_ok inside, ok_bind, readAt_ok next, ok_bind,
        shiftLeftAt_ok pos (by omega), ok_bind]
      rfl
    · rw [drop_eq_getD_cons inside, drop_eq_getD_cons next]
      rfl
    intro r' got
    cases got
    exact .inl (by dsimp only; omega)
  · rw [if_neg few, if_neg few]
    refine ⟨some r, rfl, rfl, ?_⟩
    intro r' got
    cases got
    exact .inl (Int.not_lt.mp few)

theorem ncrushGuardedSkip_spec (ready : r.Ready pSrcData) {len : Nat} (short : len ≤ 15) :
    ∃ result, ncrushGuardedSkip pSrcData r len = .ok result ∧
      nCrushSkip (r.source pSrcData) len = result.map (NcrushReader.source pSrcData) ∧
      ∀ r', result = some r' → r'.Ready pSrcData := by
  apply ncrushGuardedFetch_spec
  cases ready with
  | inl _ => exact .inl (by dsimp only; omega)
  | inr used => exact .inr used

variable {bits : Nat} {cache : OffsetCache}

theorem guardedReadExtra_follows (ready : r.Ready pSrcData) (short : bits ≤ 15) (base : Nat) :
    Follows pSrcData (ncrushGuardedReadExtra pSrcData r bits base)
    (nCrushReadExtra (r.source pSrcData) bits base) := by
  unfold ncrushGuardedReadExtra nCrushReadExtra
  by_cases some : bits ≠ 0
  · rw [if_pos some, if_pos some]
    by_cases long : 2 * bits + 3 ≥ huffTableMask.length
    · rw [if_pos long, if_pos long]
      exact ⟨none, rfl, rfl, nofun⟩
    rw [if_neg long, if_neg long]
    obtain ⟨res, guarded, plain, kept⟩ := ncrushGuardedSkip_spec ready short
    rw [guarded, plain, ok_bind]
    refine ⟨_, rfl, ?_, ?_⟩
    · cases res with
      | none => rfl
      | some r' => rfl
    intro value r' got
    cases res with
    | none => cases got
    | some _ =>
      cases got
      exact kept _ rfl
  · rw [if_neg some, if_neg some]
    refine ⟨_, rfl, rfl, ?_⟩
    intro value r' got
    cases got
    exact ready

theorem guardedReadLength_follows (ready : r.Ready pSrcData) :
    Follows pSrcData (ncrushGuardedReadLength pSrcData r) (ncrushReadLength (r.source pSrcData)) := by
  unfold ncrushGuardedReadLength ncrushReadLength
  have same : (r.source pSrcData).bits = r.bits := rfl
  dsimp only
  rw [same]
  generalize r.bits &&& getWord huffTableMask 21 = maskedBits
  by_cases big : maskedBits ≥ 512
  · rw [if_pos big, if_pos big]
    exact ⟨none, rfl, rfl, nofun⟩
  rw [if_neg big, if_neg big]
  obtain ⟨res, guarded, plain, kept⟩ := ncrushGuardedSkip_spec ready (huffTableLOM_length maskedBits)
  rw [guarded, plain, ok_bind]
  cases res with
  | none => exact ⟨none, rfl, rfl, nofun⟩
  | some r' =>
    dsimp only [Option.map_some]
    by_cases unk : huffTableLOM maskedBits &&& 0xFFF ≥ lomBitsLUT.length ∨
        huffTableLOM maskedBits &&& 0xFFF ≥ lomBaseLUT.length
    · rw [if_pos unk, if_pos unk]
      exact ⟨none, rfl, rfl, nofun⟩
    rw [if_neg unk, if_neg unk]
    apply guardedReadExtra_follows (kept r' rfl)
    have known : huffTableLOM maskedBits &&& 0xFFF < 30 := by
      have len : lomBitsLUT.length = 30 := by decide
      omega
    exact le_trans (lomBits_le _ known) (by decide)

/-! ## Copy offsets -/

structure OffsetCache.Small (cache : OffsetCache) : Prop where
  e0 : cache.e0 < 65536
  e1 : cache.e1 < 65536
  e2 : cache.e2 < 65536
  e3 : cache.e3 < 65536

theorem offsetCache_zero_small : OffsetCache.Small OffsetCache.zero := by
  constructor <;> decide

theorem OffsetCache.Small.get (sm : cache.Small) (idx : Nat) : cache.get idx < 65536 := by
  obtain ⟨_, _, _, _⟩ := sm
  unfold OffsetCache.get
  split <;> assumption

theorem OffsetCache.Small.swap (sm : cache.Small) (idx : Nat) : (cache.swap idx).Small := by
  obtain ⟨e0, e1, e2, e3⟩ := sm
  unfold OffsetCache.swap
  split
  · exact ⟨e0, e1, e2, e3⟩
  · exact ⟨e1, e0, e2, e3⟩
  · exact ⟨e2, e1, e0, e3⟩
  · exact ⟨e3, e1, e2, e0⟩

theorem OffsetCache.Small.push (sm : cache.Small) {copyOffset : Nat}
    (offset : copyOffset < 65536) : (cache.push copyOffset).Small :=
  ⟨offset, sm.e0, sm.e1, sm.e2⟩

theorem nCrushReadExtra_lt {src src' : NCrushSource} {base value : Nat} (short : bits < 15)
    (read : nCrushReadExtra src bits base = some (value, src')) : value < base + 2 ^ bits := by
  unfold nCrushReadExtra at read
  split at read
  · rename_i some
    dsimp only at read
    split at read
    · cases read
    split at read
    · cases read
    · cases read
      rw [(getWord_mask bits short (pos_of_ne_zero some)).2]
      exact Nat.add_lt_add_left (and_mask_lt _ _) base
  cases read
  exact Nat.lt_add_of_pos_right (Nat.two_pow_pos bits)

theorem copyOffset_le :
    ∀ i, i < 32 → copyOffsetBaseLUT.getD i 0 + 2 ^ copyOffsetBitsLUT.getD i 0 ≤ 65537 := by
  decide

def CopyFollows (pSrcData : List UInt8)
    (guarded : Except Fault (Except Int (Nat × Nat × NcrushReader × OffsetCache)))
    (plain : Except Int (Nat × Nat × NCrushSource × OffsetCache)) : Prop :=
  (∃ code, guarded = .ok (.error code) ∧ plain = .error code) ∨
    ∃ copyOffset lengthOfMatch r cache, guarded = .ok (.ok (copyOffset, lengthOfMatch, r, cache)) ∧
      plain = .ok (copyOffset, lengthOfMatch, r.source pSrcData, cache) ∧
        r.Ready pSrcData ∧ copyOffset < 65536 ∧
      cache.Small

theorem guardedReadCopy_follows (ready : r.Ready pSrcData) (sm : cache.Small) (idxLEC : Nat) :
    CopyFollows pSrcData (ncrushGuardedReadCopy pSrcData r cache idxLEC)
    (ncrushReadCopy (r.source pSrcData) cache idxLEC) := by
  unfold ncrushGuardedReadCopy ncrushReadCopy
  by_cases cached : idxLEC - 257 ≥ 32
  · rw [if_pos cached, if_pos cached]
    by_cases unk : idxLEC - 289 ≥ 4
    · rw [if_pos unk, if_pos unk]
      exact .inl ⟨_, rfl, rfl⟩
    rw [if_neg unk, if_neg unk]
    obtain ⟨res, guarded, plain, kept⟩ := guardedReadLength_follows ready
    rw [guarded, plain, ok_bind]
    cases res with
    | none => exact .inl ⟨_, rfl, rfl⟩
    | some read => exact .inr ⟨_, read.1, read.2, _, rfl, rfl, kept _ _ rfl, sm.get _, sm.swap _⟩
  rw [if_neg cached, if_neg cached]
  have idx : idxLEC - 257 < 32 := not_le.mp cached
  have short := copyOffsetBits_le _ idx
  obtain ⟨res, guarded, plain, kept⟩ := guardedReadExtra_follows ready (le_trans short (by decide))
    (copyOffsetBaseLUT.getD (idxLEC - 257) 0)
  have bound : ∀ tmp r', res = some (tmp, r') → tmp - 1 < 65536 := by
    intro tmp r' got
    rw [got] at plain
    have lo := nCrushReadExtra_lt (lt_succ_of_le short) plain
    have table := copyOffset_le _ idx
    omega
  rw [guarded, plain, ok_bind]
  cases res with
  | none => exact .inl ⟨_, rfl, rfl⟩
  | some read =>
    obtain ⟨tmp, r'⟩ := read
    dsimp only [Option.map_some]
    by_cases zero : tmp < 1
    · rw [if_pos zero, if_pos zero]
      exact .inl ⟨_, rfl, rfl⟩
    rw [if_neg zero, if_neg zero]
    have offset := bound tmp r' rfl
    obtain ⟨res, guarded, plain, kept⟩ := guardedReadLength_follows (kept tmp r' rfl)
    rw [guarded, plain, ok_bind]
    cases res with
    | none => exact .inl ⟨_, rfl, rfl⟩
    | some read => exact .inr ⟨_, read.1, read.2, _, rfl, rfl, kept _ _ rfl, offset, sm.push offset⟩

end Reader

/-! ## Copies -/

theorem cyclicCopyAt_ok {size base per n : Nat} (src : base + max per 1 ≤ size) {mem : Mem UInt8}
    {dst idx : Nat} (destination : dst + n ≤ size) :
    cyclicCopyAt size mem dst base per idx n = .ok (cyclicCopy mem dst base per idx n) := by
  induction n generalizing mem dst idx with
  | zero => rfl
  | succ n ih =>
    have turn : (if idx ≥ per then 0 else idx) < max per 1 := by
      split <;> omega
    rw [cyclicCopyAt, readAt_ok (by omega), ok_bind, writeAt_ok (by omega), ok_bind]
    exact ih (by omega)

theorem cyclicCopy_zero (mem : Mem UInt8) (dst base idx n : Nat) :
    cyclicCopy mem dst base 0 idx n = blit mem dst (replicate n (mem base)) := by
  induction n generalizing mem dst idx with
  | zero => rfl
  | succ n ih =>
    have kept : store mem dst (mem base) base = mem base := by
      by_cases here : base = dst
      · rw [← here, store_same]
      · rw [store_of_ne _ _ here]
    rw [cyclicCopy, if_pos (zero_le idx), add_zero, ih, kept, replicate_succ, blit]

/-- A match has been executed as it should be: byte by byte with the source taken modulo the
history, or for copy offset 0 with the byte at `HistoryPtr`. -/
structure NcrushCopied.Exact (copied : NcrushCopied) : Prop where
  fits : copied.historyPtr + copied.lengthOfMatch ≤ ncrushHistorySize
  advance : copied.nextPtr = copied.historyPtr + copied.lengthOfMatch
  content : copied.after =
    if copied.copyOffset = 0 then
      blit copied.before copied.historyPtr
        (List.replicate copied.lengthOfMatch (copied.before copied.historyPtr))
    else
      lzCopyWrapped ncrushHistorySize copied.before copied.historyPtr
        ((copied.historyPtr + ncrushHistorySize - copied.copyOffset) % ncrushHistorySize)
          copied.lengthOfMatch

section Copy
variable {mem : Mem UInt8} {histPtr copyOffset lengthOfMatch : Nat}

section
variable (off : copyOffset < 65536)
include off

theorem ncrushGuardedCopy_ok (room : histPtr + lengthOfMatch < 65535)
    (src : (histPtr + 2 ^ 64 - copyOffset) % 65536 + lengthOfMatch < 65535) :
    ncrushGuardedCopy mem 65535 histPtr copyOffset lengthOfMatch =
      .ok (ncrushCopy mem 65535 histPtr copyOffset lengthOfMatch) := by
  unfold ncrushGuardedCopy ncrushCopy ncrushHistorySize
  dsimp only
  have copyLen : (if lengthOfMatch > copyOffset then copyOffset else lengthOfMatch) =
      min lengthOfMatch copyOffset := by
    split <;> omega
  by_cases past : histPtr ≥ copyOffset
  · rw [if_pos past, if_pos past, copyAt_ok (by omega) (by omega), ok_bind,
      cyclicCopyAt_ok (by omega) (by omega), ok_bind]
    rfl
  -- the source runs up to the end of the buffer at most, and the match is shorter than its offset
  rw [if_neg past, if_neg past, copyAt_ok (by omega) (by omega), ok_bind,
    show lengthOfMatch - copyOffset = 0 by omega]
  rfl

theorem ncrushCopy_wrapped (ahead : histPtr < copyOffset)
    (src : histPtr + 65536 - copyOffset + lengthOfMatch < 65535) :
    ncrushCopy mem 65535 histPtr copyOffset lengthOfMatch =
      (lzCopy mem histPtr (histPtr + 65536 - copyOffset) lengthOfMatch, histPtr + lengthOfMatch) := by
  have pre : 65535 - (copyOffset - histPtr) + 1 = histPtr + 65536 - copyOffset := by omega
  have all : min lengthOfMatch (65535 + 1 - (histPtr + 65536 - copyOffset)) = lengthOfMatch := by omega
  unfold ncrushCopy
  dsimp only
  rw [if_neg (show ¬histPtr ≥ copyOffset by omega),
    if_neg (show ¬lengthOfMatch > copyOffset by omega), pre, all,
    show lengthOfMatch - copyOffset = 0 by omega]
  rfl

theorem ncrushCopy_exact (room : histPtr + lengthOfMatch < 65535)
    (src : (histPtr + 2 ^ 64 - copyOffset) % 65536 + lengthOfMatch < 65535) :
    NcrushCopied.Exact ⟨mem, histPtr, copyOffset, lengthOfMatch,
      (ncrushCopy mem 65535 histPtr copyOffset lengthOfMatch).1,
      (ncrushCopy mem 65535 histPtr copyOffset lengthOfMatch).2⟩ := by
  have fits : histPtr + lengthOfMatch ≤ ncrushHistorySize := by unfold ncrushHistorySize; omega
  by_cases zero : copyOffset = 0
  · have copy : ncrushCopy mem 65535 histPtr copyOffset lengthOfMatch =
        (blit mem histPtr (replicate lengthOfMatch (mem histPtr)), histPtr + lengthOfMatch) := by
      have none : (if lengthOfMatch > 0 then 0 else lengthOfMatch) = 0 := by split <;> omega
      subst zero
      unfold ncrushCopy
      dsimp only
      rw [if_pos (zero_le histPtr), none, cyclicCopy_zero]
      rfl
    rw [copy]
    exact ⟨fits, rfl, by rw [if_pos zero]⟩
  by_cases past : copyOffset ≤ histPtr
  · have st : histPtr + ncrushHistorySize - copyOffset = histPtr - copyOffset + ncrushHistorySize := by
      omega
    have copy := ncrushCopy_eq mem 65535 (show histPtr - copyOffset < histPtr by omega) lengthOfMatch
    rw [show histPtr - (histPtr - copyOffset) = copyOffset by omega] at copy
    rw [copy]
    refine ⟨fits, rfl, ?_⟩
    dsimp only
    rw [if_neg zero, st, add_mod_right]
    rw [mod_eq_of_lt (by omega), lzCopyWrapped_eq (by omega)]
  rw [ncrushCopy_wrapped off (by omega) (by omega)]
  refine ⟨fits, rfl, ?_⟩
  dsimp only
  rw [if_neg zero]
  unfold ncrushHistorySize
  rw [mod_eq_of_lt (by omega), lzCopyWrapped_eq (by omega)]

end

end Copy

/-! ## Symbols -/

def NcrushGuardedDecoder.plain (pSrcData : List UInt8) (s : NcrushGuardedDecoder) : NcrushDecoder :=
  ⟨s.src.source pSrcData, s.historyBuffer, s.historyPtr, s.offsetCache⟩

structure NcrushGuardedDecoder.Good (pSrcData : List UInt8) (s : NcrushGuardedDecoder) : Prop where
  ready : s.src.Ready pSrcData
  pointer : s.historyPtr ≤ 65535
  cache : s.offsetCache.Small
  copies : ∀ copied ∈ s.copies, copied.Exact

inductive RoundFollows (pSrcData : List UInt8) (historyPtr : Nat) :
    NcrushGuardedRound → NcrushRound → Prop where
  | next {s : NcrushGuardedDecoder} : s.Good pSrcData → historyPtr < s.historyPtr →
    RoundFollows pSrcData historyPtr (.next s) (.next (s.plain pSrcData))
  | done {s : NcrushGuardedDecoder} : s.Good pSrcData →
    RoundFollows pSrcData historyPtr (.done s) (.done (s.plain pSrcData))
  | fail {s : NcrushGuardedDecoder} (code : Int) : s.Good pSrcData →
    RoundFollows pSrcData historyPtr (.fail code s) (.fail code (s.plain pSrcData))

section Symbol
variable {pSrcData : List UInt8} {s : NcrushGuardedDecoder}

theorem guardedMatch_follows (good : s.Good pSrcData) {copyOffset : Nat}
    (offset : copyOffset < 65536) (lengthOfMatch : Nat) :
    ∃ round, ncrushGuardedMatch 65535 s copyOffset lengthOfMatch = .ok round ∧
    RoundFollows pSrcData s.historyPtr round
        (if lengthOfMatch < 2 then .fail (-1005) (s.plain pSrcData)
        else if (s.historyPtr + 2 ^ 64 - copyOffset) &&& 0xFFFF ≥ 65535 - lengthOfMatch ∨
            s.historyPtr ≥ 65535 - lengthOfMatch then .fail (-1006) (s.plain pSrcData) else
          let copied := ncrushCopy s.historyBuffer 65535 s.historyPtr copyOffset lengthOfMatch
          .next { s.plain pSrcData with historyBuffer := copied.1, historyPtr := copied.2 }) := by
  unfold ncrushGuardedMatch
  by_cases short : lengthOfMatch < 2
  · rw [if_pos short, if_pos short]
    exact ⟨_, rfl, .fail _ good⟩
  rw [if_neg short, if_neg short]
  by_cases rejected : (s.historyPtr + 2 ^ 64 - copyOffset) &&& 0xFFFF ≥ 65535 - lengthOfMatch ∨
      s.historyPtr ≥ 65535 - lengthOfMatch
  · rw [if_pos rejected, if_pos rejected]
    exact ⟨_, rfl, .fail _ good⟩
  have mask := and_two_pow_sub_one_eq_mod (s.historyPtr + 2 ^ 64 - copyOffset) 16
  rw [if_neg rejected, if_neg rejected]
  rw [mask] at rejected
  have exact :=
    @ncrushCopy_exact s.historyBuffer s.historyPtr copyOffset lengthOfMatch offset (by omega) (by omega)
  rw [ncrushGuardedCopy_ok offset (by omega) (by omega), ok_bind]
  have advance : (ncrushCopy s.historyBuffer 65535 s.historyPtr copyOffset lengthOfMatch).2 =
      s.historyPtr + lengthOfMatch := exact.advance
  refine ⟨_, rfl, .next ⟨good.ready, ?_, good.cache, ?_⟩ ?_⟩
  · dsimp only
    omega
  · intro copied member
    cases member with
    | head => exact exact
    | tail _ earlier => exact good.copies copied earlier
  dsimp only
  omega

theorem guardedStep_follows (good : s.Good pSrcData) : ∃ round,
    ncrushGuardedStep pSrcData 65535 s = .ok round ∧
      RoundFollows pSrcData s.historyPtr round (ncrushDecompressStep 65535 (s.plain pSrcData)) := by
  unfold ncrushGuardedStep ncrushDecompressStep
  have same : (s.plain pSrcData).src.bits = s.src.bits := rfl
  dsimp only
  rw [same]
  generalize s.src.bits &&& getWord huffTableMask 29 = maskedBits
  by_cases big : maskedBits ≥ 8192
  · rw [if_pos big, if_pos big]
    exact ⟨_, rfl, .fail _ good⟩
  rw [if_neg big, if_neg big]
  obtain ⟨res, guarded, plain, kept⟩ :=
    ncrushGuardedSkip_spec good.ready (huffTableLEC_length maskedBits)
  rw [guarded, ok_bind, show (s.plain pSrcData).src = s.src.source pSrcData by rfl, plain]
  generalize huffTableLEC maskedBits = entry
  cases res with
  | none => exact ⟨_, rfl, .fail _ good⟩
  | some src =>
    have ready := kept src rfl
    unfold ncrushGuardedSymbol
    dsimp only [Option.map_some]
    by_cases lit : entry &&& 0xFFF < 256
    · rw [if_pos lit, if_pos lit]
      by_cases full : s.historyPtr ≥ 65535
      · rw [if_pos full, if_pos (show (s.plain pSrcData).historyPtr ≥ 65535 by exact full)]
        exact ⟨_, rfl, .fail _ ⟨ready, good.pointer, good.cache, good.copies⟩⟩
      rw [if_neg full, if_neg (show ¬(s.plain pSrcData).historyPtr ≥ 65535 by exact full),
        writeAt_ok (by unfold ncrushHistorySize; omega), ok_bind]
      refine ⟨_, rfl, .next ⟨ready, ?_, good.cache, good.copies⟩ (lt_succ_self _)⟩
      dsimp only
      omega
    rw [if_neg lit, if_neg lit]
    by_cases last : entry &&& 0xFFF = 256
    · rw [if_pos last, if_pos last]
      exact ⟨_, rfl, .done ⟨ready, good.pointer, good.cache, good.copies⟩⟩
    rw [if_neg last, if_neg last]
    have follows := guardedReadCopy_follows ready good.cache (entry &&& 0xFFF)
    rw [show (s.plain pSrcData).offsetCache = s.offsetCache by rfl]
    cases follows with
    | inl failed =>
      obtain ⟨_, guarded, plain⟩ := failed
      rw [guarded, plain, ok_bind]
      exact ⟨_, rfl, .fail _ ⟨ready, good.pointer, good.cache, good.copies⟩⟩
    | inr read =>
      obtain ⟨_, lengthOfMatch, r, cache, guarded, plain, ready, offset, lt⟩ := read
      have read : NcrushGuardedDecoder.Good pSrcData { s with src := r, offsetCache := cache } :=
        ⟨ready, good.pointer, lt, good.copies⟩
      rw [guarded, plain, ok_bind]
      exact guardedMatch_follows read offset lengthOfMatch

theorem guardedLoop_follows (good : s.Good pSrcData) {fuel : Nat} (room : 65535 < s.historyPtr + fuel) :
    ∃ s' code, ncrushGuardedLoop pSrcData 65535 fuel s = .ok (s', code) ∧
      ncrushDecompressLoop 65535 fuel (s.plain pSrcData) = (s'.plain pSrcData, code) ∧
      s'.Good pSrcData := by
  induction fuel generalizing s with
  | zero =>
    have ptr := good.pointer
    omega
  | succ fuel ih =>
    obtain ⟨_, guarded, follows⟩ := guardedStep_follows good
    rw [ncrushGuardedLoop, ncrushDecompressLoop, guarded, ok_bind]
    generalize ncrushDecompressStep 65535 (s.plain pSrcData) = step at follows
    cases follows with
    | next kept moved => exact ih kept (by omega)
    | done kept | fail code kept => exact ⟨_, _, rfl, rfl, kept⟩

end Symbol

/-! ## Packets -/

structure NcrushReady (ncrush : NcrushContext) : Prop where
  last : ncrush.historyEndOffset = 65535
  pointer : ncrush.historyPtr ≤ 65535
  cache : ncrush.offsetCache.Small

def PacketFollows (guarded : Except Fault (List NcrushCopied × NcrushDecompressed))
    (plain : NcrushDecompressed) : Prop :=
  ∃ copies, guarded = .ok (copies, plain) ∧ (∀ copied ∈ copies, copied.Exact) ∧ NcrushReady plain.ncrush

theorem packetFollows_of_none {plain : NcrushDecompressed} (ready : NcrushReady plain.ncrush) :
    PacketFollows (.ok ([], plain)) plain :=
  ⟨[], rfl, fun _ member => absurd member not_mem_nil, ready⟩

theorem exists_four {l : List UInt8} (long : 4 ≤ l.length) : ∃ b0 b1 b2 b3 rest,
    l = b0 :: b1 :: b2 :: b3 :: rest := by
  match l, long with
  | b0 :: b1 :: b2 :: b3 :: rest, _ => exact ⟨b0, b1, b2, b3, rest, rfl⟩

variable {ncrush : NcrushContext}

section
variable (ready : NcrushReady ncrush)
include ready

theorem guardedHistory_follows (pSrcData : List UInt8) :
    PacketFollows (ncrushGuardedHistory ncrush pSrcData) (ncrushDecompressHistory ncrush pSrcData) := by
  unfold ncrushGuardedHistory
  by_cases short : pSrcData.length < 4
  · have rejected :
        ncrushDecompressHistory ncrush pSrcData = { ncrush := ncrush, status := -1, dstData := [] } := by
      unfold ncrushDecompressHistory
      split
      · simp only [length_cons] at short
        omega
      · rfl
    rw [if_pos short, rejected]
    exact packetFollows_of_none ready
  obtain ⟨b0, b1, b2, b3, srcPtr, rfl⟩ := exists_four (not_lt.mp short)
  have st : NcrushGuardedDecoder.Good (b0 :: b1 :: b2 :: b3 :: srcPtr)
      ⟨⟨4, 32, b0.toNat ||| b1.toNat <<< 8 ||| b2.toNat <<< 16 ||| b3.toNat <<< 24⟩,
        ncrush.historyBuffer,
        ncrush.historyPtr, ncrush.offsetCache, []⟩ :=
    ⟨.inl (by dsimp only; decide), ready.pointer, ready.cache, fun _ member => absurd member not_mem_nil⟩
  obtain ⟨s, code, guarded, plain, good⟩ := @guardedLoop_follows _ _ st 65537 (by dsimp only; omega)
  unfold ncrushDecompressHistory
  dsimp only
  rw [if_neg short, readAt_ok (by omega), ok_bind, readAt_ok (by omega), ok_bind,
    readAt_ok (by omega), ok_bind, readAt_ok (by omega), ok_bind, ready.last]
  have fst : listMem 0 (b0 :: b1 :: b2 :: b3 :: srcPtr) 0 = b0 := rfl
  have second : listMem 0 (b0 :: b1 :: b2 :: b3 :: srcPtr) 1 = b1 := rfl
  have third : listMem 0 (b0 :: b1 :: b2 :: b3 :: srcPtr) 2 = b2 := rfl
  have fourth : listMem 0 (b0 :: b1 :: b2 :: b3 :: srcPtr) 3 = b3 := rfl
  rw [fst, second, third, fourth, guarded, ok_bind]
  have run : ncrushDecompressLoop 65535 (65535 + 2) ⟨⟨srcPtr, 32, b0.toNat ||| b1.toNat <<< 8 |||
      b2.toNat <<< 16 ||| b3.toNat <<< 24⟩, ncrush.historyBuffer, ncrush.historyPtr,
        ncrush.offsetCache⟩ =
      (s.plain _, code) := plain
  rw [run]
  by_cases fail : code ≠ 1
  · rw [if_pos fail, if_pos fail]
    exact ⟨s.copies, rfl, good.copies, rfl, ready.pointer, good.cache⟩
  rw [if_neg fail, if_neg fail]
  by_cases fence : ncrush.historyBufferFence ≠ 0xABABABAB
  · rw [if_pos fence, if_pos fence]
    exact ⟨s.copies, rfl, good.copies, rfl, ready.pointer, good.cache⟩
  rw [if_neg fence, if_neg fence]
  exact ⟨s.copies, rfl, good.copies, rfl, good.pointer, good.cache⟩

theorem ncrushGuardedFlags_ok {flags : Nat}
    (room : ¬(flags &&& PACKET_AT_FRONT ≠ 0 ∧ ncrush.historyPtr ≤ 32768)) :
    ncrushGuardedFlags ncrush flags = .ok (ncrushApplyFlags ncrush flags) ∧
    NcrushReady (ncrushApplyFlags ncrush flags) := by
  have ptr := ready.pointer
  unfold ncrushGuardedFlags ncrushApplyFlags
  dsimp only
  by_cases pre : flags &&& PACKET_AT_FRONT ≠ 0
  · have far : ¬ncrush.historyPtr ≤ 32768 := fun near => room ⟨pre, near⟩
    have moved : ncrushGuardedMove ncrush = .ok (ncrushMoveDecoderWindow ncrush) :=
      if_pos ⟨by omega, by unfold ncrushHistorySize; omega⟩
    rw [if_pos pre, if_pos pre, moved, ok_bind]
    by_cases flush : flags &&& PACKET_FLUSHED ≠ 0
    · rw [if_pos flush, if_pos flush, clearAt_ok (le_refl _)]
      exact ⟨rfl, ready.last, zero_le _, offsetCache_zero_small⟩
    rw [if_neg flush, if_neg flush]
    exact ⟨rfl, ready.last, show 32768 ≤ 65535 by decide, ready.cache⟩
  rw [if_neg pre, if_neg pre, ok_bind]
  by_cases flush : flags &&& PACKET_FLUSHED ≠ 0
  · rw [if_pos flush, if_pos flush, clearAt_ok (le_refl _)]
    exact ⟨rfl, ready.last, zero_le _, offsetCache_zero_small⟩
  rw [if_neg flush, if_neg flush]
  exact ⟨rfl, ready⟩

theorem guardedDecompress_follows (pSrcData : List UInt8) (flags : Nat) :
    PacketFollows (ncrushGuardedDecompress ncrush pSrcData flags)
    (ncrushDecompress ncrush pSrcData flags) := by
  unfold ncrushGuardedDecompress ncrushDecompress
  rw [if_neg (not_not.mpr ready.last), if_neg (not_not.mpr ready.last)]
  by_cases pre : flags &&& PACKET_AT_FRONT ≠ 0 ∧ ncrush.historyPtr ≤ 32768
  · rw [if_pos pre, if_pos pre]
    exact packetFollows_of_none ready
  obtain ⟨guarded, applied⟩ := ncrushGuardedFlags_ok ready pre
  rw [if_neg pre, if_neg pre, guarded, ok_bind]
  by_cases raw : flags &&& PACKET_COMPRESSED = 0
  · rw [if_pos raw, if_pos raw]
    exact packetFollows_of_none applied
  rw [if_neg raw, if_neg raw]
  exact guardedHistory_follows applied pSrcData

end

/-! ## Sessions -/

structure NcrushInput where
  pSrcData : List UInt8
  flags : Nat

def ncrushGuardedReceive (state : List NcrushCopied × NcrushContext) (packet : NcrushInput) :
    Except Fault (List NcrushCopied × NcrushContext) := do
  let received ← ncrushGuardedDecompress state.2 packet.pSrcData packet.flags
  return (received.1 ++ state.1, received.2.ncrush)

theorem ncrushReady_new {cmp : Bool} (new : ncrushContextNew cmp = some ncrush) :
    NcrushReady ncrush := by
  obtain ⟨_, -, rfl⟩ := Option.map_eq_some_iff.mp new
  exact ⟨rfl, zero_le _, offsetCache_zero_small⟩

theorem ncrushContextNew_some : ∃ ncrush, ncrushContextNew false = some ncrush := by
  rw [ncrushContextNew, ncrushGenerateTables_eq]
  exact ⟨_, rfl⟩

/-- However hostile the packets are, a session comes to its end without touching a byte outside of
a packet or the history, and every match is executed byte by byte. -/
theorem ncrush_session_safe {compressor : Bool} {ncrush : NcrushContext}
    (new : ncrushContextNew compressor = some ncrush) (packets : List NcrushInput) :
    ∃ copies left, packets.foldlM ncrushGuardedReceive ([], ncrush) = .ok (copies, left) ∧
      left = packets.foldl
      (fun ncrush packet => (ncrushDecompress ncrush packet.pSrcData packet.flags).ncrush) ncrush ∧
      ∀ copied ∈ copies, copied.Exact := by
  have from_any : ∀ (packets : List NcrushInput) (copies : List NcrushCopied) (ncrush : NcrushContext),
      NcrushReady ncrush → (∀ copied ∈ copies, copied.Exact) →
      ∃ copies' left, packets.foldlM ncrushGuardedReceive (copies, ncrush) = .ok (copies', left) ∧
        left = packets.foldl
          (fun ncrush packet => (ncrushDecompress ncrush packet.pSrcData packet.flags).ncrush) ncrush ∧
        ∀ copied ∈ copies', copied.Exact := by
    intro packets
    induction packets with
    | nil => exact fun copies ncrush _ exact => ⟨copies, ncrush, rfl, rfl, exact⟩
    | cons packet packets ih =>
      intro copies ncrush ready exact
      obtain ⟨more, guarded, moreExact, next⟩ :=
        guardedDecompress_follows ready packet.pSrcData packet.flags
      have recv : ncrushGuardedReceive (copies, ncrush) packet =
          .ok (more ++ copies, (ncrushDecompress ncrush packet.pSrcData packet.flags).ncrush) := by
        rw [ncrushGuardedReceive, guarded, ok_bind]
        rfl
      rw [List.foldlM_cons, List.foldl_cons, recv, ok_bind]
      apply ih _ _ next
      intro copied member
      cases List.mem_append.mp member with
      | inl new => exact moreExact copied new
      | inr old => exact exact copied old
  exact from_any packets [] ncrush (ncrushReady_new new) fun _ member => absurd member List.not_mem_nil

/-- Two packets, of which the first one ends within its four bytes. -/
theorem ncrush_session_safe_two : ∃ ncrush, ncrushContextNew false = some ncrush ∧
      ∃ copies left, [(⟨[0x24, 0xF5, 0xFF, 0x01], PACKET_COMPRESSED⟩ : NcrushInput),
          ⟨[0x38, 0xFE, 0x2F, 0x00], PACKET_COMPRESSED⟩].foldlM ncrushGuardedReceive
            ([], ncrush) = .ok (copies, left) ∧
        left = [(⟨[0x24, 0xF5, 0xFF, 0x01], PACKET_COMPRESSED⟩ : NcrushInput),
          ⟨[0x38, 0xFE, 0x2F, 0x00], PACKET_COMPRESSED⟩].foldl
            (fun ncrush packet => (ncrushDecompress ncrush packet.pSrcData packet.flags).ncrush) ncrush ∧
        ∀ copied ∈ copies, copied.Exact := by
  obtain ⟨ncrush, new⟩ := ncrushContextNew_some
  exact ⟨ncrush, new, ncrush_session_safe new _⟩

/-- A packet that fails after the literals 1 and 2, and a match of two bytes with copy offset 0 in
the next one: byte by byte it would leave the second byte as it is. -/
theorem ncrush_match_not_lz : ∃ ncrush copied copies left, ncrushContextNew false = some ncrush ∧
      [(⟨[0x24, 0xF5, 0xFF, 0x01], PACKET_COMPRESSED⟩ : NcrushInput),
        ⟨[0x38, 0xFE, 0x2F, 0x00], PACKET_COMPRESSED⟩].foldlM
        ncrushGuardedReceive ([], ncrush) = .ok (copied :: copies, left) ∧
      copied.after ≠ lzCopyWrapped ncrushHistorySize copied.before copied.historyPtr
        ((copied.historyPtr + ncrushHistorySize - copied.copyOffset) % ncrushHistorySize)
        copied.lengthOfMatch := by
  obtain ⟨ncrush, new⟩ := ncrushContextNew_some
  have run : (([(⟨[0x24, 0xF5, 0xFF, 0x01], PACKET_COMPRESSED⟩ : NcrushInput),
      ⟨[0x38, 0xFE, 0x2F, 0x00], PACKET_COMPRESSED⟩].foldlM ncrushGuardedReceive
        ([], ncrush)).toOption.bind
      fun r => r.1.head?).any (fun copied =>
        copied.after 1 ≠ lzCopyWrapped ncrushHistorySize copied.before copied.historyPtr
        ((copied.historyPtr + ncrushHistorySize - copied.copyOffset) % ncrushHistorySize)
          copied.lengthOfMatch 1) = true := by
    rw [ncrushContextNew, ncrushGenerateTables_eq] at new
    cases new
    decide +kernel
  refine ⟨ncrush, ?_⟩
  generalize [(⟨[0x24, 0xF5, 0xFF, 0x01], PACKET_COMPRESSED⟩ : NcrushInput),
    ⟨[0x38, 0xFE, 0x2F, 0x00], PACKET_COMPRESSED⟩].foldlM ncrushGuardedReceive ([], ncrush) =
      result at run
  obtain _ | ⟨_ | ⟨copied, copies⟩, left⟩ := result
  · cases run
  · cases run
  refine ⟨copied, copies, left, new, rfl, ?_⟩
  intro same
  simp [Except.toOption, same] at run

end KvmServer.Codec
