import KvmServer.Codec.Mppc
import KvmServer.Codec.NcrushTables

/-! # NCRUSH bulk compression (`ncrush.c`)

The RDP 6.0 compressor: a 64K history, Huffman codes sent least significant bit first, a cache of
the last four copy offsets, and hash chains over two-byte words.  Pointers into `HistoryBuffer` are
offsets; `SrcPtr` is the list of bytes from it on. -/

namespace KvmServer.Codec
open Lib

structure OffsetCache where
  (e0 e1 e2 e3 : Nat)
deriving DecidableEq, Repr

namespace OffsetCache

def zero : OffsetCache := ⟨0, 0, 0, 0⟩

variable (cache : OffsetCache)

def get : Nat → Nat
  | 0 => cache.e0
  | 1 => cache.e1
  | 2 => cache.e2
  | _ => cache.e3

def swap : Nat → OffsetCache
  | 0 => cache
  | 1 => { cache with e1 := cache.e0, e0 := cache.e1 }
  | 2 => { cache with e2 := cache.e0, e0 := cache.e2 }
  | _ => { cache with e3 := cache.e0, e0 := cache.e3 }

def push (copyOffset : Nat) : OffsetCache :=
  ⟨copyOffset, cache.e0, cache.e1, cache.e2⟩

end OffsetCache

structure NcrushContext where
  compressor : Bool
  (historyPtr historyOffset historyEndOffset historyBufferSize : Nat)
  historyBuffer : Mem UInt8
  historyBufferFence : Nat
  offsetCache : OffsetCache
  (hashTable matchTable : Mem Nat)
  (huffTableCopyOffset huffTableLOM : Nat → Nat)

/-- `get_word(&table[index])`, little endian. -/
def getWord (table : List Nat) (index : Nat) : Nat :=
  table.getD index 0 ||| table.getD (index + 1) 0 <<< 8

/-! ## Context -/

def indexRuns (first last : Nat) (bits : Nat → Nat) : List Nat :=
  (List.range' first (last - first)).flatMap fun i => List.replicate (2 ^ bits i) i

@[irreducible] def lomRuns : List Nat := indexRuns 0 28 (lomBitsLUT.getD · 0)

@[irreducible] def nearRuns : List Nat := indexRuns 0 16 (copyOffsetBitsLUT.getD · 0)

@[irreducible] def farRuns : List Nat := indexRuns 16 32 (fun i => copyOffsetBitsLUT.getD i 0 - 7)

def generatedTableLOM (l : Nat) : Nat := if 2 ≤ l then lomRuns.getD (l - 2) 0 else 0

def generatedTableCopyOffset (l : Nat) : Nat :=
  let start := nearRuns.length / 128 + 2 + 256
  if start ≤ l ∧ l < start + farRuns.length then farRuns.getD (l - start) 0
  else if 2 ≤ l then nearRuns.getD (l - 2) 0 else 0

def generatedLengthOk (k : Nat) : Bool :=
  let i := if k - 2 < 768 then generatedTableLOM k else 28
  i < lomBitsLUT.length && i < lomBaseLUT.length &&
    (((2 ^ lomBitsLUT.getD i 0 - 1) &&& (k - 2)) + lomBaseLUT.getD i 0 == k)

/-- The two tables of the encoder, `none` when a check fails. -/
def ncrushGenerateTables : Option ((Nat → Nat) × (Nat → Nat)) :=
  if (List.range' 2 4094).all generatedLengthOk &&
      nearRuns.length / 128 + farRuns.length + 256 ≤ 1024 then
    some (generatedTableCopyOffset, generatedTableLOM)
  else none

variable (ncrush : NcrushContext)

def ncrushContextReset (flush : Bool) : NcrushContext :=
  let historyOffset := if flush then ncrush.historyBufferSize + 1 else 0
  { ncrush with
    historyBuffer := zeroMemory 65536 ncrush.historyBuffer
    offsetCache := OffsetCache.zero
    matchTable := zeroMemory 65536 ncrush.matchTable
    hashTable := zeroMemory 65536 ncrush.hashTable
    historyOffset := historyOffset
    historyPtr := historyOffset }

def ncrushContextBlank (compressor : Bool) (huffTableCopyOffset huffTableLOM : Nat → Nat) :
    NcrushContext :=
  { compressor := compressor
    historyPtr := 0
    historyOffset := 0
    historyEndOffset := 65535
    historyBufferSize := 65536
    historyBuffer := ⟨fun _ => 0⟩
    historyBufferFence := 0xABABABAB
    offsetCache := OffsetCache.zero
    hashTable := ⟨fun _ => 0⟩
    matchTable := ⟨fun _ => 0⟩
    huffTableCopyOffset := huffTableCopyOffset
    huffTableLOM := huffTableLOM }

def ncrushContextNew (compressor : Bool) : Option NcrushContext :=
  ncrushGenerateTables.map fun tables =>
    ncrushContextReset (ncrushContextBlank compressor tables.1 tables.2) false

/-! ## Bits, least significant first -/

structure NCrushSource where
  srcPtr : List UInt8
  nbits : Int
  bits : Nat

/-- Two more bytes when fewer than 16 bits are left, or the last one. -/
def nCrushFetchBits (s : NCrushSource) : Option NCrushSource :=
  if s.nbits < 16 then
    match s.srcPtr with
    | [] => if s.nbits < 0 then none else some s
    | [src] =>
      some { srcPtr := []
             nbits := s.nbits + 8
             bits := (s.bits + src.toNat <<< s.nbits.toNat) % 2 ^ 32 }
    | low :: high :: rest =>
      let tmp := low.toNat ||| ((high.toNat <<< 8) &&& 0xFF00)
      some { srcPtr := rest
             nbits := s.nbits + 16
             bits := (s.bits + (tmp <<< s.nbits.toNat) % 2 ^ 32) % 2 ^ 32 }
  else some s

def nCrushSkip (s : NCrushSource) (length : Nat) : Option NCrushSource :=
  nCrushFetchBits { s with bits := s.bits >>> length, nbits := s.nbits - length }

structure NCrushSink where
  dst : List UInt8
  (accumulator offset : Nat)

def nCrushWriteBits (s : NCrushSink) (bits nbits : Nat) : NCrushSink :=
  let accumulator := s.accumulator ||| (bits <<< s.offset) % 2 ^ 32
  let offset := s.offset + nbits
  if offset ≥ 16 then
    { dst := s.dst ++ [UInt8.ofNat (accumulator &&& 0xFF), UInt8.ofNat (accumulator >>> 8 &&& 0xFF)]
      accumulator := accumulator >>> 16
      offset := offset - 16 }
  else { s with accumulator := accumulator, offset := offset }

def nCrushWriteFinish (s : NCrushSink) : List UInt8 :=
  s.dst ++ [UInt8.ofNat (s.accumulator &&& 0xFF), UInt8.ofNat (s.accumulator >>> 8 &&& 0xFF)]

/-! ## `ncrush_decompress` -/

structure NcrushDecoder where
  src : NCrushSource
  historyBuffer : Mem UInt8
  historyPtr : Nat
  offsetCache : OffsetCache

def nCrushReadExtra (src : NCrushSource) (bits base : Nat) : Option (Nat × NCrushSource) :=
  if bits ≠ 0 then
    let idx := 2 * bits + 3
    if idx ≥ huffTableMask.length then none
    else
      let maskedBits := src.bits &&& getWord huffTableMask idx
      match nCrushSkip src bits with
      | none => none
      | some src => some (base + maskedBits, src)
  else some (base, src)

def ncrushReadLength (src : NCrushSource) : Option (Nat × NCrushSource) :=
  let maskedBits := src.bits &&& getWord huffTableMask 21
  if maskedBits ≥ 512 then none
  else
    let lengthOfMatch := huffTableLOM maskedBits &&& 0xFFF
    let bitLength := huffTableLOM maskedBits >>> 12
    match nCrushSkip src bitLength with
    | none => none
    | some src =>
      if lengthOfMatch ≥ lomBitsLUT.length ∨ lengthOfMatch ≥ lomBaseLUT.length then none
      else nCrushReadExtra src (lomBitsLUT.getD lengthOfMatch 0) (lomBaseLUT.getD lengthOfMatch 0)

/-- A copy offset from the cache or from the stream, the length after it, and the cache as it is
left; on failure the code that is returned. -/
def ncrushReadCopy (src : NCrushSource) (cache : OffsetCache) (indexLEC : Nat) :
    Except Int (Nat × Nat × NCrushSource × OffsetCache) :=
  let copyOffsetIndex := indexLEC - 257
  if copyOffsetIndex ≥ 32 then
    let offsetCacheIndex := indexLEC - 289
    if offsetCacheIndex ≥ 4 then .error (-1004)
    else
      match ncrushReadLength src with
      | none => .error (-1)
      | some (length, src) =>
        .ok (cache.get offsetCacheIndex, length, src, cache.swap offsetCacheIndex)
  else
    match nCrushReadExtra src (copyOffsetBitsLUT.getD copyOffsetIndex 0)
        (copyOffsetBaseLUT.getD copyOffsetIndex 0) with
    | none => .error (-1)
    | some (tmp, src) =>
      -- every base is at least one
      if tmp < 1 then .error (-1)
      else
        match ncrushReadLength src with
        | none => .error (-1)
        | some (length, src) => .ok (tmp - 1, length, src, cache.push (tmp - 1))

/-- `index = (index >= CopyOffset) ? 0 : index; *HistoryPtr++ = *(CopyOffsetPtr + index++)`. -/
def cyclicCopy (mem : Mem UInt8) (dst base period index : Nat) : Nat → Mem UInt8
  | 0 => mem
  | n + 1 =>
    let index := if index ≥ period then 0 else index
    cyclicCopy (store mem dst (mem (base + index))) (dst + 1) base period (index + 1) n

def ncrushCopy (mem : Mem UInt8) (historyBufferEnd historyPtr copyOffset lengthOfMatch : Nat) :
    Mem UInt8 × Nat :=
  let copyLength := if lengthOfMatch > copyOffset then copyOffset else lengthOfMatch
  if historyPtr ≥ copyOffset then
    let copyOffsetPtr := historyPtr - copyOffset
    let mem := lzCopy mem historyPtr copyOffsetPtr copyLength
    (cyclicCopy mem (historyPtr + copyLength) (copyOffsetPtr + copyLength) copyOffset 0
      (lengthOfMatch - copyOffset), historyPtr + copyLength + (lengthOfMatch - copyOffset))
  else
    -- the match starts before the front of the buffer and continues at its end
    let copyOffsetPtr := historyBufferEnd - (copyOffset - historyPtr) + 1
    let copied := min copyLength (historyBufferEnd + 1 - copyOffsetPtr)
    let mem := lzCopy mem historyPtr copyOffsetPtr copied
    (cyclicCopy mem (historyPtr + copied) 0 copyOffset 0 (lengthOfMatch - copyOffset),
      historyPtr + copied + (lengthOfMatch - copyOffset))

inductive NcrushRound where
  | next (s : NcrushDecoder)
  | done (s : NcrushDecoder)
  | fail (code : Int) (s : NcrushDecoder)

def ncrushDecompressStep (historyBufferEnd : Nat) (s : NcrushDecoder) : NcrushRound :=
  let maskedBits := s.src.bits &&& getWord huffTableMask 29
  if maskedBits ≥ 8192 then .fail (-1) s
  else
    let indexLEC := huffTableLEC maskedBits &&& 0xFFF
    let bitLength := huffTableLEC maskedBits >>> 12
    match nCrushSkip s.src bitLength with
    | none => .fail (-1) s
    | some src =>
      let s := { s with src := src }
      if indexLEC < 256 then
        if s.historyPtr ≥ historyBufferEnd then .fail (-1003) s
        else
          .next { s with
            historyBuffer := store s.historyBuffer s.historyPtr
              (UInt8.ofNat (huffTableLEC maskedBits &&& 0xFF))
            historyPtr := s.historyPtr + 1 }
      else if indexLEC = 256 then .done s
      else
        match ncrushReadCopy s.src s.offsetCache indexLEC with
        | .error code => .fail code s
        | .ok (copyOffset, lengthOfMatch, src, offsetCache) =>
          let s := { s with src := src, offsetCache := offsetCache }
          if lengthOfMatch < 2 then .fail (-1005) s
          else if (s.historyPtr + 2 ^ 64 - copyOffset) &&& 0xFFFF ≥ historyBufferEnd - lengthOfMatch ∨
              s.historyPtr ≥ historyBufferEnd - lengthOfMatch then .fail (-1006) s
          else
            let copied :=
              ncrushCopy s.historyBuffer historyBufferEnd s.historyPtr copyOffset lengthOfMatch
            .next { s with historyBuffer := copied.1, historyPtr := copied.2 }

/-- Every symbol but the last moves `HistoryPtr`, which stays below the end of the history. -/
def ncrushDecompressLoop (historyBufferEnd : Nat) : Nat → NcrushDecoder → NcrushDecoder × Int
  | 0, s => (s, -1003)
  | fuel + 1, s =>
    match ncrushDecompressStep historyBufferEnd s with
    | .next s' => ncrushDecompressLoop historyBufferEnd fuel s'
    | .done s' => (s', 1)
    | .fail code s' => (s', code)

structure NcrushDecompressed where
  ncrush : NcrushContext
  status : Int
  dstData : List UInt8

/-- `PACKET_AT_FRONT` keeps the last 32K and clears the upper half. -/
def ncrushMoveDecoderWindow : NcrushContext :=
  { ncrush with
    historyBuffer := ⟨fun i =>
      if i < 32768 then ncrush.historyBuffer (ncrush.historyPtr - 32768 + i)
      else if i < 65536 then 0 else ncrush.historyBuffer i⟩
    historyPtr := 32768 }

def ncrushFlushDecoder : NcrushContext :=
  { ncrush with
    historyPtr := 0
    historyBuffer := zeroMemory 65536 ncrush.historyBuffer
    offsetCache := OffsetCache.zero }

variable (pSrcData : List UInt8)

def ncrushDecompressHistory : NcrushDecompressed :=
  match pSrcData with
  | b0 :: b1 :: b2 :: b3 :: srcPtr =>
    let bits := b0.toNat ||| b1.toNat <<< 8 ||| b2.toNat <<< 16 ||| b3.toNat <<< 24
    let result := ncrushDecompressLoop ncrush.historyEndOffset (ncrush.historyEndOffset + 2)
      ⟨⟨srcPtr, 32, bits⟩, ncrush.historyBuffer, ncrush.historyPtr, ncrush.offsetCache⟩
    let left := { ncrush with
      historyBuffer := result.1.historyBuffer, offsetCache := result.1.offsetCache }
    if result.2 ≠ 1 then { ncrush := left, status := result.2, dstData := [] }
    else if ncrush.historyBufferFence ≠ 0xABABABAB then
      { ncrush := left, status := -1007, dstData := [] }
    else
      { ncrush := { left with historyPtr := result.1.historyPtr }
        status := 1
        dstData := block result.1.historyBuffer ncrush.historyPtr
          (result.1.historyPtr - ncrush.historyPtr) }
  | _ => { ncrush := ncrush, status := -1, dstData := [] }

def ncrushApplyFlags (flags : Nat) : NcrushContext :=
  let moved := if flags &&& PACKET_AT_FRONT ≠ 0 then ncrushMoveDecoderWindow ncrush else ncrush
  if flags &&& PACKET_FLUSHED ≠ 0 then ncrushFlushDecoder moved else moved

def ncrushDecompress (flags : Nat) : NcrushDecompressed :=
  if ncrush.historyEndOffset ≠ 65535 then { ncrush := ncrush, status := -1001, dstData := [] }
  else if flags &&& PACKET_AT_FRONT ≠ 0 ∧ ncrush.historyPtr ≤ 32768 then
    { ncrush := ncrush, status := -1002, dstData := [] }
  else if flags &&& PACKET_COMPRESSED = 0 then
    { ncrush := ncrushApplyFlags ncrush flags, status := 1, dstData := pSrcData }
  else ncrushDecompressHistory (ncrushApplyFlags ncrush flags) pSrcData

/-! ## Finding matches -/

/-- Every position but the last eight of the packet enters the chain of its two-byte word. -/
def ncrushHashTableAdd (hashTable matchTable : Mem Nat) (offset : Nat) : List UInt8 → Mem Nat × Mem Nat
  | b0 :: b1 :: b2 :: b3 :: b4 :: b5 :: b6 :: b7 :: b8 :: src =>
    let word := b0.toNat ||| b1.toNat <<< 8
    let hash := hashTable word
    ncrushHashTableAdd (store hashTable word (offset % 2 ^ 16)) (store matchTable offset hash)
      (offset + 1) (b1 :: b2 :: b3 :: b4 :: b5 :: b6 :: b7 :: b8 :: src)
  | _ => (hashTable, matchTable)

/-- The final `Ptr1` of `ncrush_find_match_length`: one past the first difference, or one past
`HistoryPtr`. -/
def matchLengthScan (mem : Mem UInt8) (historyPtr : Nat) : Nat → Nat → Nat → Nat
  | 0, ptr1, _ => ptr1
  | fuel + 1, ptr1, ptr2 =>
    if ptr1 > historyPtr then ptr1
    else if mem ptr1 = mem ptr2 then matchLengthScan mem historyPtr fuel (ptr1 + 1) (ptr2 + 1)
    else ptr1 + 1

def ncrushFindMatchLength (mem : Mem UInt8) (ptr1 ptr2 historyPtr : Nat) : Int :=
  (matchLengthScan mem historyPtr (historyPtr + 2 - ptr1) ptr1 ptr2 : Int) - (ptr1 + 1)

/-- The six probes of one round: an even one looks at `nextOffset`, an odd one at `offset`.  The
result is the position that passed, if any, and the two variables. -/
def ncrushProbe (mem : Mem UInt8) (matchTable : Mem Nat) (matchLength : Nat) (target : UInt8) :
    Nat → Bool → Nat → Nat → Option Nat × Nat × Nat
  | 0, _, offset, nextOffset => (none, offset, nextOffset)
  | n + 1, true, _, nextOffset =>
    if mem (matchLength + nextOffset) = target then (some nextOffset, matchTable nextOffset, nextOffset)
    else ncrushProbe mem matchTable matchLength target n false (matchTable nextOffset) nextOffset
  | n + 1, false, offset, _ =>
    if mem (matchLength + offset) = target then (some offset, offset, matchTable offset)
    else ncrushProbe mem matchTable matchLength target n true offset (matchTable offset)

/-- The rounds of `ncrush_find_best_match`; `none` when it returns an error. -/
def ncrushBestMatchLoop (mem : Mem UInt8) (matchTable : Mem Nat) (historyOffset historyPtr : Nat) :
    Nat → Nat → Nat → Nat → Nat → Option (Nat × Nat)
  | 0, matchLength, matchOffset, _, _ => some (matchLength, matchOffset)
  | i + 1, matchLength, matchOffset, offset, nextOffset =>
    match ncrushProbe mem matchTable matchLength (mem (historyOffset + matchLength)) 6 true offset
        nextOffset with
    | (none, offset, nextOffset) =>
      ncrushBestMatchLoop mem matchTable historyOffset historyPtr i matchLength matchOffset offset
        nextOffset
    | (some offset, _, _) =>
      if offset ≠ historyOffset ∧ offset ≠ 0 then
        let length := ncrushFindMatchLength mem (historyOffset + 2) (offset + 2) historyPtr + 2
        if length < 2 then none
        else if length > 16 then some (matchLength, matchOffset)
        else
          let better := length > matchLength
          let matchOffset := if better then offset else matchOffset
          let matchLength := if better then length.toNat else matchLength
          if length ≤ matchLength ∨ historyOffset + 2 < historyPtr then
            ncrushBestMatchLoop mem matchTable historyOffset historyPtr i matchLength matchOffset
              offset (matchTable offset)
          else some (matchLength, matchOffset)
      else some (matchLength, matchOffset)

/-- `ncrush_find_best_match` with the match table it leaves: entry 0 ends the chains at the current
position while the search runs. -/
def ncrushFindBestMatch (historyOffset : Nat) : Mem Nat × Option (Nat × Nat) :=
  if ncrush.matchTable historyOffset = 0 then (ncrush.matchTable, none)
  else
    let matchTable := store ncrush.matchTable 0 historyOffset
    let matchOffset := matchTable historyOffset
    match ncrushBestMatchLoop ncrush.historyBuffer matchTable historyOffset ncrush.historyPtr 4 2
        matchOffset historyOffset matchOffset with
    | none => (matchTable, none)
    | some found => (store matchTable 0 0, some found)

def moveHistory (historyBuffer : Mem UInt8) (historyOffset : Nat) : Mem UInt8 :=
  ⟨fun i => if i < 32768 then historyBuffer (historyOffset + i) else historyBuffer i⟩

def moveHashTable (hashTable : Mem Nat) (historyOffset : Nat) : Mem Nat :=
  ⟨fun i => if i < 65536 then hashTable i - historyOffset else hashTable i⟩

def moveMatchTable (matchTable : Mem Nat) (historyOffset : Nat) : Mem Nat :=
  ⟨fun j =>
    if j < 32768 then
      if historyOffset + j ≥ 65536 then matchTable j
      else matchTable (historyOffset + j) - historyOffset
    else if j < 65536 then 0 else matchTable j⟩

/-- The last 32K move to the front and the tables with them. -/
def ncrushMoveEncoderWindows (historyPtr : Nat) : Option NcrushContext :=
  if historyPtr < 32768 ∨ historyPtr > 65536 then none
  else
    let historyOffset := historyPtr - 32768
    some { ncrush with
      historyBuffer := moveHistory ncrush.historyBuffer historyOffset
      hashTable := moveHashTable ncrush.hashTable historyOffset
      matchTable := moveMatchTable ncrush.matchTable historyOffset }

/-! ## `ncrush_compress` -/

structure NcrushEncoder where
  ncrush : NcrushContext
  historyPtr : Nat
  srcPtr : List UInt8
  sink : NCrushSink

/-- Why compression of a packet ends early: it is sent flushed, or an error is returned. -/
inductive NcrushStop where
  | flush (ncrush : NcrushContext)
  | fail (code : Int) (ncrush : NcrushContext)

variable (sink : NCrushSink)

/-- The code of a literal, copy offset or cache index.  An index outside the tables returns -1, a
code longer than `maxLength` bits returns `tooLong`. -/
def writeLEC (indexLEC maxLength : Nat) (tooLong : Int) : Except Int NCrushSink :=
  if indexLEC ≥ huffLengthLEC.length ∨ indexLEC * 2 ≥ huffCodeLEC.length then .error (-1)
  else
    let bitLength := huffLengthLEC.getD indexLEC 0
    if bitLength > maxLength then .error tooLong
    else .ok (nCrushWriteBits sink (getWord huffCodeLEC (2 * indexLEC)) bitLength)

/-- The code of a match length with its extra bits; `mismatch` is returned when they do not add up
to the length. -/
def writeLOM (matchLength : Nat) (mismatch : Int) : Except Int NCrushSink :=
  let indexCO := if matchLength - 2 ≥ 768 then 28 else ncrush.huffTableLOM matchLength
  if indexCO ≥ huffLengthLOM.length ∨ indexCO ≥ lomBitsLUT.length ∨ indexCO ≥ huffCodeLOM.length ∨
      indexCO ≥ lomBaseLUT.length then .error (-1)
  else
    let bitLength := huffLengthLOM.getD indexCO 0
    let indexLOM := lomBitsLUT.getD indexCO 0
    let maskedBits := (matchLength - 2) &&& (2 ^ indexLOM - 1)
    if maskedBits + lomBaseLUT.getD indexCO 0 ≠ matchLength then .error mismatch
    else
      .ok (nCrushWriteBits (nCrushWriteBits sink (huffCodeLOM.getD indexCO 0) bitLength) maskedBits
        indexLOM)

def writeCopyOffset (copyOffset : Nat) : Except Int NCrushSink :=
  let bits := if copyOffset ≥ 256 then copyOffset >>> 7 + 256 else copyOffset
  let copyOffsetIndex := ncrush.huffTableCopyOffset (bits + 2)
  if copyOffsetIndex ≥ copyOffsetBitsLUT.length then .error (-1)
  else
    let copyOffsetBits := copyOffsetBitsLUT.getD copyOffsetIndex 0
    match writeLEC sink (257 + copyOffsetIndex) 15 (-1008) with
    | .error code => .error code
    | .ok sink =>
      if copyOffsetBits > 18 then .error (-1009)
      else .ok (nCrushWriteBits sink (copyOffset &&& (2 ^ copyOffsetBits - 1)) copyOffsetBits)

def OffsetCache.find (cache : OffsetCache) (copyOffset : Nat) : Option Nat :=
  if copyOffset = cache.e3 then some 3
  else if copyOffset = cache.e2 then some 2
  else if copyOffset = cache.e1 then some 1
  else if copyOffset = cache.e0 then some 0
  else none

def writeMatch (copyOffset matchLength : Nat) : NcrushContext × Except Int NCrushSink :=
  match ncrush.offsetCache.find copyOffset with
  | some index =>
    ({ ncrush with offsetCache := ncrush.offsetCache.swap index },
      match writeLEC sink (289 + index) 14 (-1011) with
      | .error code => .error code
      | .ok sink => writeLOM ncrush sink matchLength (-1012))
  | none =>
    ({ ncrush with offsetCache := ncrush.offsetCache.push copyOffset },
      match writeCopyOffset ncrush sink copyOffset with
      | .error code => .error code
      | .ok sink => writeLOM ncrush sink matchLength (-1010))

def ncrushSendLiteral (dstEnd : Nat) (ncrush : NcrushContext) (s : NcrushEncoder) :
    Except NcrushStop NcrushEncoder :=
  match s.srcPtr with
  | [] => .ok s
  | literal :: src =>
    if s.sink.dst.length + 2 > dstEnd then .error (.flush ncrush)
    else
      match writeLEC s.sink literal.toNat 15 (-1006) with
      | .error code => .error (.fail code ncrush)
      | .ok sink =>
        if s.historyPtr + 1 ≥ 65536 then .error (.fail (-1013) ncrush)
        else .ok { ncrush := ncrush, historyPtr := s.historyPtr + 1, srcPtr := src, sink := sink }

def ncrushSendMatch (dstEnd : Nat) (ncrush : NcrushContext) (s : NcrushEncoder)
    (copyOffset matchLength : Nat) : Except NcrushStop NcrushEncoder :=
  if s.sink.dst.length + 8 > dstEnd then .error (.flush ncrush)
  else
    match writeMatch ncrush s.sink copyOffset matchLength with
    | (ncrush, .error code) => .error (.fail code ncrush)
    | (ncrush, .ok sink) =>
      if s.historyPtr + matchLength ≥ 65536 then .error (.fail (-1013) ncrush)
      else
        .ok { ncrush := ncrush
              historyPtr := s.historyPtr + matchLength
              srcPtr := s.srcPtr.drop matchLength
              sink := sink }

def ncrushCompressStep (dstEnd : Nat) (s : NcrushEncoder) : Except NcrushStop NcrushEncoder :=
  let historyOffset := s.historyPtr
  if s.historyPtr > s.ncrush.historyPtr then .error (.fail (-1) s.ncrush)
  else if historyOffset ≥ 65536 then .error (.fail (-1004) s.ncrush)
  else
    let search := ncrushFindBestMatch s.ncrush historyOffset
    let ncrush := { s.ncrush with matchTable := search.1 }
    let found := if s.ncrush.matchTable historyOffset = 0 then some (0, 0) else search.2
    match found with
    | none => .error (.fail (-1005) ncrush)
    | some (length, matchOffset) =>
      let copyOffset := (ncrush.historyBufferSize - 1) &&& (s.historyPtr + 2 ^ 64 - matchOffset)
      let matchLength := if length = 2 ∧ copyOffset ≥ 64 then 0 else length
      if matchLength = 0 then ncrushSendLiteral dstEnd ncrush s
      else ncrushSendMatch dstEnd ncrush s copyOffset matchLength

/-- `while (SrcPtr < (SrcEndPtr - 2))`: at least three bytes are left.  Every round consumes one, so
the packet size bounds the rounds. -/
def ncrushCompressLoop (dstEnd : Nat) : Nat → NcrushEncoder → Except NcrushStop NcrushEncoder
  | 0, s => .ok s
  | fuel + 1, s =>
    if 2 < s.srcPtr.length then
      match ncrushCompressStep dstEnd s with
      | .error stop => .error stop
      | .ok s' => ncrushCompressLoop dstEnd fuel s'
    else .ok s

def ncrushCompressTail (dstEnd : Nat) (ncrush : NcrushContext) :
    List UInt8 → Nat → NCrushSink → Except NcrushStop (Nat × NCrushSink)
  | [], historyPtr, sink => .ok (historyPtr, sink)
  | literal :: src, historyPtr, sink =>
    if sink.dst.length + 2 > dstEnd then .error (.flush ncrush)
    else
      match writeLEC sink literal.toNat 15 (-1014) with
      | .error code => .error (.fail code ncrush)
      | .ok sink => ncrushCompressTail dstEnd ncrush src (historyPtr + 1) sink

structure NcrushCompressed where
  ncrush : NcrushContext
  status : Int
  dstData : List UInt8
  flags : Nat

def NcrushStop.result : NcrushStop → NcrushCompressed
  | .flush ncrush => ⟨ncrushContextReset ncrush true, 1, pSrcData, PACKET_FLUSHED ||| 2⟩
  | .fail code ncrush => ⟨ncrush, code, [], 0⟩

def ncrushEnterPacket : NcrushContext :=
  let tables := ncrushHashTableAdd ncrush.hashTable ncrush.matchTable ncrush.historyOffset pSrcData
  { ncrush with
    hashTable := tables.1
    matchTable := tables.2
    historyBuffer := blit ncrush.historyBuffer ncrush.historyOffset pSrcData
    historyPtr := ncrush.historyOffset + pSrcData.length }

def ncrushEncodePacket (start flags : Nat) : NcrushCompressed :=
  let dstEnd := pSrcData.length - 1
  match ncrushCompressLoop dstEnd pSrcData.length ⟨ncrush, start, pSrcData, ⟨[], 0, 0⟩⟩ with
  | .error stop => stop.result pSrcData
  | .ok s =>
    match ncrushCompressTail dstEnd s.ncrush s.srcPtr s.historyPtr s.sink with
    | .error stop => stop.result pSrcData
    | .ok (historyPtr, sink) =>
      if sink.dst.length + 4 ≥ dstEnd then (NcrushStop.flush s.ncrush).result pSrcData
      else
        match writeLEC sink 256 15 (-1015) with
        | .error code => (NcrushStop.fail code s.ncrush).result pSrcData
        | .ok sink =>
          let dstData := nCrushWriteFinish sink
          if dstData.length > pSrcData.length then ⟨s.ncrush, -1016, dstData, 0⟩
          else
            let flags := PACKET_COMPRESSED ||| 2 ||| flags
            let ncrush := { s.ncrush with historyOffset := historyPtr }
            if historyPtr ≥ ncrush.historyBufferSize then ⟨ncrush, -1, dstData, flags⟩
            else ⟨ncrush, 1, dstData, flags⟩

/-- Where the packet goes: after the history, at the front after a flush, or in the middle after a
window move; with the flag that tells the receiver. -/
def ncrushPlacePacket (srcSize : Nat) : Option (NcrushContext × Nat) :=
  if srcSize + ncrush.historyOffset ≥ 65529 then
    if ncrush.historyOffset = ncrush.historyBufferSize + 1 then
      some ({ ncrush with historyOffset := 0, historyPtr := 0 }, PACKET_FLUSHED)
    else
      match ncrushMoveEncoderWindows ncrush ncrush.historyOffset with
      | none => none
      | some ncrush =>
          some ({ ncrush with historyPtr := 32768, historyOffset := 32768 }, PACKET_AT_FRONT)
  else some (ncrush, 0)

def ncrushCompress (pDstSize : Nat) : NcrushCompressed :=
  match ncrushPlacePacket ncrush pSrcData.length with
  | none => ⟨ncrush, -1001, [], 0⟩
  | some (ncrush, flags) =>
    if pDstSize < pSrcData.length then ⟨ncrush, -1003, [], 0⟩
    else
      ncrushEncodePacket (ncrushEnterPacket ncrush pSrcData) pSrcData ncrush.historyOffset flags

end KvmServer.Codec
