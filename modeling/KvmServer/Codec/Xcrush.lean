import KvmServer.Codec.Mppc
import KvmServer.Lib.Bytes

/-! # XCRUSH bulk compression (`xcrush.c`)

Level 1 cuts the packet into chunks, looks their hashes up in a chunk table and replaces long
repetitions from a history of 2,000,000 bytes; level 2 is MPPC with the 64K history.  Pointers into
`HistoryBuffer` are offsets. An `Except` carries the code that is returned and the context as it is
then. -/

namespace KvmServer.Codec
open Lib

def L1_COMPRESSED : Nat := 0x01
def L1_NO_COMPRESSION : Nat := 0x02
def L1_PACKET_AT_FRONT : Nat := 0x04
def L1_INNER_COMPRESSION : Nat := 0x10

structure XcrushMatchInfo where
  (matchOffset chunkOffset matchLength : Nat)
deriving DecidableEq, Repr

structure XcrushChunk where
  (offset next : Nat)
deriving DecidableEq, Repr

structure XcrushSignature where
  (seed size : Nat)
deriving DecidableEq, Repr

structure XcrushContext where
  mppc : MppcContext
  (historyOffset historyBufferSize : Nat)
  historyBuffer : Mem UInt8
  (compressionFlags signatureCount chunkHead chunkTail : Nat)
  chunks : Mem XcrushChunk
  nextChunks : Mem Nat

/-! ## Context -/

variable (xcrush : XcrushContext)

def xcrushContextReset (flush : Bool) : XcrushContext :=
  { xcrush with
    signatureCount := 1000
    compressionFlags := 0
    chunkHead := 1
    chunkTail := 1
    chunks := ⟨fun i => if i < 65534 then ⟨0, 0⟩ else xcrush.chunks i⟩
    nextChunks := zeroMemory 65536 xcrush.nextChunks
    historyOffset := if flush then xcrush.historyBufferSize + 1 else 0
    mppc := mppcContextReset xcrush.mppc flush }

def xcrushContextNew (compressor : Bool) : XcrushContext :=
  xcrushContextReset
    { mppc := mppcContextNew 1 compressor
      historyOffset := 0
      historyBufferSize := 2000000
      historyBuffer := ⟨fun _ => 0⟩
      compressionFlags := 0
      signatureCount := 0
      chunkHead := 0
      chunkTail := 0
      chunks := ⟨fun _ => ⟨0, 0⟩⟩
      nextChunks := ⟨fun _ => 0⟩ } false

/-! ## Signatures -/

def updateHashLoop : Nat → List UInt8 → Nat → Nat
  | 0, _, seed => seed
  | n + 1, data, seed =>
    updateHashLoop n (data.drop 4)
      ((seed + ((data.getD 3 0 ^^^ data.getD 0 0).toNat + (data.getD 1 0).toNat <<< 8)) % 2 ^ 16)

def xcrushUpdateHash (data : List UInt8) (size : Nat) : Nat :=
  if size > 32 then updateHashLoop 7 data 5413 else updateHashLoop ((size - 4 + 3) / 4) data 5381

structure XcrushChunker where
  signatures : List XcrushSignature
  beg : Nat

def xcrushAppendChunk (signatureCount : Nat) (data : List UInt8) (s : XcrushChunker) (last : Nat) :
    Option XcrushChunker :=
  if s.signatures.length ≥ signatureCount then none
  else
    let size := last - s.beg
    if size > 65535 then none
    else if size ≥ 15 then
      some { signatures := s.signatures ++ [⟨xcrushUpdateHash (data.drop s.beg) size, size⟩]
             beg := last }
    else some s

def rotl32 (x : Nat) : Nat := (x <<< 1) % 2 ^ 32 ||| x >>> 31

/-- The rolling hash over the positions `i ..`; a chunk ends where its low seven bits are zero. -/
def xcrushChunkLoop (signatureCount : Nat) (data : List UInt8) :
    Nat → Nat → Nat → XcrushChunker → Option XcrushChunker
  | 0, _, _, s => some s
  | n + 1, i, accumulator, s =>
    let accumulator := (data.getD (i + 32) 0).toNat ^^^ (data.getD i 0).toNat ^^^ rotl32 accumulator
    if accumulator &&& 0x7F = 0 then
      match xcrushAppendChunk signatureCount data s (i + 32) with
      | none => none
      | some s => xcrushChunkLoop signatureCount data n (i + 1) accumulator s
    else xcrushChunkLoop signatureCount data n (i + 1) accumulator s

/-- None when the packet is short or a limit is hit.  The loop is unrolled four times, so it
runs up to the next multiple of four. -/
def xcrushComputeSignatures (signatureCount : Nat) (data : List UInt8) : List XcrushSignature :=
  if data.length < 128 then []
  else
    let accumulator := (data.take 32).foldl (fun acc byte => byte.toNat ^^^ rotl32 acc) 0
    match xcrushChunkLoop signatureCount data ((data.length - 64 + 3) / 4 * 4) 0 accumulator ⟨[], 0⟩ with
    | none => []
    | some s =>
      if data.length = s.beg then s.signatures
      else
        match xcrushAppendChunk signatureCount data s data.length with
        | none => []
        | some s => s.signatures

def clearRange (first last x : Nat) : Nat := if first ≤ x ∧ x ≤ last then 0 else x

def xcrushClearHashTableRange (first last : Nat) : XcrushContext :=
  { xcrush with
    nextChunks := ⟨fun i => if i < 65536 then clearRange first last (xcrush.nextChunks i)
      else xcrush.nextChunks i⟩
    chunks := ⟨fun i => if i < 65534 then
        { xcrush.chunks i with next := clearRange first last (xcrush.chunks i).next }
      else xcrush.chunks i⟩ }

def xcrushFindNextMatchingChunk (chunk : Nat) : Except Int (Option Nat) :=
  let next := (xcrush.chunks chunk).next
  if next ≠ 0 then
    -- the element distance of two chunk pointers is divided by the size of a chunk once more
    let index := chunk / 8
    if index ≥ 65534 then .error (-4002)
    else if index < xcrush.chunkHead ∨ next ≥ xcrush.chunkHead then
      if next ≥ 65534 then .error (-4003) else .ok (some next)
    else .ok none
  else .ok none

/-- The previous chunk with this hash is left as it was when there is none. -/
def xcrushInsertChunk (signature : XcrushSignature) (offset : Nat)
    (prevChunk : Option Nat) : Except (Int × XcrushContext) (XcrushContext × Option Nat) :=
  let xcrush :=
    if xcrush.chunkHead ≥ 65530 then { xcrush with chunkHead := 1, chunkTail := 1 } else xcrush
  let xcrush := if xcrush.chunkHead ≥ xcrush.chunkTail then
      { xcrushClearHashTableRange xcrush xcrush.chunkTail (xcrush.chunkTail + 10000) with
        chunkTail := xcrush.chunkTail + 10000 }
    else xcrush
  let index := xcrush.chunkHead
  let xcrush := { xcrush with chunkHead := index + 1 }
  if xcrush.chunkHead ≥ 65534 then .error (-3001, xcrush)
  else
    let next := xcrush.nextChunks signature.seed
    if next ≥ 65534 then
      .error (-3003, { xcrush with
        chunks := store xcrush.chunks index { xcrush.chunks index with offset := offset } })
    else
      .ok ({ xcrush with
          chunks := store xcrush.chunks index ⟨offset, next⟩
          nextChunks := store xcrush.nextChunks signature.seed index },
        if next ≠ 0 then some next else prevChunk)

/-! ## Matches -/

def forwardMatchLength (historyBuffer : Mem UInt8) (matchPtr chunkPtr : Nat) : Nat → Nat
  | 0 => 0
  | left + 1 =>
    if historyBuffer matchPtr = historyBuffer chunkPtr then
      forwardMatchLength historyBuffer (matchPtr + 1) (chunkPtr + 1) left + 1
    else 0

/-- Equal bytes before the two pointers; the first byte of the packet and of the history are never
reached. -/
def reverseMatchLength (historyBuffer : Mem UInt8) (historyOffset : Nat) : Nat → Nat → Nat
  | matchPtr + 1, chunkPtr + 1 =>
    if matchPtr > historyOffset ∧ chunkPtr > 0 ∧ historyBuffer matchPtr = historyBuffer chunkPtr then
      reverseMatchLength historyBuffer historyOffset matchPtr chunkPtr + 1
    else 0
  | _, _ => 0

/-- No match is one of length zero. -/
def xcrushFindMatchLength (matchOffset chunkOffset historyOffset srcSize maxMatchLength : Nat) :
    Except Int XcrushMatchInfo :=
  let historyBufferEnd := historyOffset + srcSize
  if matchOffset > xcrush.historyBufferSize then .error (-2001)
  else if chunkOffset > xcrush.historyBufferSize then .error (-2002)
  else if matchOffset = chunkOffset then .error (-2003)
  else if matchOffset + maxMatchLength + 1 < historyBufferEnd ∧
      xcrush.historyBuffer (matchOffset + maxMatchLength + 1) ≠
        xcrush.historyBuffer (chunkOffset + maxMatchLength + 1) then .ok ⟨0, 0, 0⟩
  else
    let forward := forwardMatchLength xcrush.historyBuffer matchOffset chunkOffset
      (historyBufferEnd - matchOffset)
    let reverse := reverseMatchLength xcrush.historyBuffer historyOffset matchOffset chunkOffset
    if reverse + forward < 11 then .ok ⟨0, 0, 0⟩
    else .ok ⟨matchOffset - reverse, chunkOffset - reverse, reverse + forward⟩

/-- The chain walk of `xcrush_find_all_matches`, with `more` chunks to go after this one: where it
stops, and the longest match. -/
def xcrushWalkChunks (xcrush : XcrushContext) (offset historyOffset srcSize : Nat) :
    Nat → Nat → XcrushMatchInfo → Except Int (Option Nat × XcrushMatchInfo)
  | more, chunk, maxMatchInfo =>
    let chunkOffset := (xcrush.chunks chunk).offset
    let found :=
      if chunkOffset < historyOffset ∨ chunkOffset < offset ∨ chunkOffset > srcSize + historyOffset then
        xcrushFindMatchLength xcrush offset chunkOffset historyOffset srcSize maxMatchInfo.matchLength
      else .ok ⟨0, 0, 0⟩
    match found with
    | .error status => .error status
    | .ok matchInfo =>
      let longer := decide (matchInfo.matchLength > maxMatchInfo.matchLength)
      let maxMatchInfo := if longer then matchInfo else maxMatchInfo
      if longer ∧ matchInfo.matchLength > 256 then .ok (some chunk, maxMatchInfo)
      else
        match more with
        | 0 => .ok (some chunk, maxMatchInfo)
        | more + 1 =>
          match xcrushFindNextMatchingChunk xcrush chunk with
          | .error status => .error status
          | .ok none => .ok (none, maxMatchInfo)
          | .ok (some next) =>
              xcrushWalkChunks xcrush offset historyOffset srcSize more next maxMatchInfo

structure XcrushSearch where
  xcrush : XcrushContext
  chunk : Option Nat
  (srcOffset prevMatchEnd : Nat)
  originalMatches : List XcrushMatchInfo

def xcrushFindMatch (historyOffset srcSize : Nat) (signature : XcrushSignature) (s : XcrushSearch) :
    Except (Int × XcrushContext) XcrushSearch :=
  let offset := s.srcOffset + historyOffset
  match xcrushInsertChunk s.xcrush signature offset s.chunk with
  | .error e => .error e
  | .ok (xcrush, none) => .ok { s with xcrush := xcrush, chunk := none }
  | .ok (xcrush, some chunk) =>
    if offset + signature.size ≥ s.prevMatchEnd then
      match xcrushWalkChunks xcrush offset historyOffset srcSize 5 chunk ⟨0, 0, 0⟩ with
      | .error status => .error (status, xcrush)
      | .ok (chunk, maxMatchInfo) =>
        if maxMatchInfo.matchLength = 0 then .ok { s with xcrush := xcrush, chunk := chunk }
        else if maxMatchInfo.matchOffset < historyOffset then .error (-1002, xcrush)
        else if s.originalMatches.length + 1 ≥ 1000 then .error (-1003, xcrush)
        else .ok
          { s with
            xcrush := xcrush
            chunk := chunk
            prevMatchEnd := maxMatchInfo.matchLength + maxMatchInfo.matchOffset
            originalMatches := s.originalMatches ++ [maxMatchInfo] }
    else .ok { s with xcrush := xcrush, chunk := some chunk }

def xcrushFindAllMatches (historyOffset srcSize : Nat) :
    List XcrushSignature → XcrushSearch → Except (Int × XcrushContext) XcrushSearch
  | [], s => if s.srcOffset > srcSize then .error (-1005, s.xcrush) else .ok s
  | signature :: signatures, s =>
    if signature.size = 0 then .error (-1001, s.xcrush)
    else
      match xcrushFindMatch historyOffset srcSize signature s with
      | .error e => .error e
      | .ok s' =>
        let s' := { s' with srcOffset := s.srcOffset + signature.size }
        if s'.srcOffset > srcSize then .error (-1004, s'.xcrush)
        else xcrushFindAllMatches historyOffset srcSize signatures s'

/-- A match that overlaps the previous one loses its head, or is dropped when little is left. -/
def xcrushOptimizeMatches : Nat → List XcrushMatchInfo → Except Int (List XcrushMatchInfo)
  | _, [] => .ok []
  | prevMatchEnd, m :: originalMatches =>
    if m.matchOffset ≤ prevMatchEnd then
      if m.matchOffset < prevMatchEnd ∧ m.matchLength + m.matchOffset > prevMatchEnd + 6 then
        let matchDiff := prevMatchEnd - m.matchOffset
        if m.matchLength ≤ matchDiff then .error (-5001)
        else if matchDiff ≥ 20000 then .error (-5002)
        else
          let m : XcrushMatchInfo :=
            ⟨m.matchOffset + matchDiff, m.chunkOffset + matchDiff, m.matchLength - matchDiff⟩
          match xcrushOptimizeMatches (m.matchLength + m.matchOffset) originalMatches with
          | .error status => .error status
          | .ok optimizedMatches => .ok (m :: optimizedMatches)
      else xcrushOptimizeMatches prevMatchEnd originalMatches
    else
      match xcrushOptimizeMatches (m.matchLength + m.matchOffset) originalMatches with
      | .error status => .error status
      | .ok optimizedMatches => .ok (m :: optimizedMatches)

def matchDetails (historyOffset : Nat) (m : XcrushMatchInfo) : List UInt8 :=
  leBytes 2 m.matchLength ++ leBytes 2 (m.matchOffset - historyOffset) ++ leBytes 4 m.chunkOffset

def xcrushLiterals (historyBuffer : Mem UInt8) (historyEnd : Nat) :
    Nat → Nat → List XcrushMatchInfo → Except Int (List UInt8)
  | room, currentOffset, [] =>
    let historyOffsetDiff := sub32 historyEnd currentOffset
    if historyOffsetDiff ≥ room then .error (-6006)
    else .ok (block historyBuffer currentOffset historyOffsetDiff)
  | room, currentOffset, m :: optimizedMatches =>
    let next := m.matchOffset + m.matchLength % 2 ^ 16
    if m.matchOffset ≤ currentOffset then
      if m.matchOffset ≠ currentOffset then .error (-6003)
      else xcrushLiterals historyBuffer historyEnd room next optimizedMatches
    else
      let matchOffsetDiff := m.matchOffset - currentOffset
      if matchOffsetDiff ≥ room then .error (-6004)
      else
        match xcrushLiterals historyBuffer historyEnd (room - matchOffsetDiff) next optimizedMatches with
        | .error status => .error status
        | .ok literals => .ok (block historyBuffer currentOffset matchOffsetDiff ++ literals)

def xcrushGenerateOutput (outputSize historyOffset : Nat)
    (optimizedMatches : List XcrushMatchInfo) : Except Int (List UInt8) :=
  let header := 2 + 8 * optimizedMatches.length
  if 2 ≥ outputSize then .error (-6001)
  else if header > outputSize then .error (-6002)
  else
    match xcrushLiterals xcrush.historyBuffer xcrush.historyOffset (outputSize - header) historyOffset
        optimizedMatches with
    | .error status => .error status
    | .ok literals =>
      .ok (leBytes 2 optimizedMatches.length ++ optimizedMatches.flatMap (matchDetails historyOffset) ++
        literals)

/-! ## `xcrush_compress` -/

structure XcrushL1 where
  xcrush : XcrushContext
  data : List UInt8
  flags : Nat
  optimizedMatches : List XcrushMatchInfo

def xcrushPacketStart (srcSize : Nat) : Nat :=
  if xcrush.historyOffset + srcSize + 8 > xcrush.historyBufferSize then 0 else xcrush.historyOffset

variable (pSrcData : List UInt8)

def xcrushAppend : XcrushContext :=
  let historyOffset := xcrushPacketStart xcrush pSrcData.length
  { xcrush with
    historyBuffer := blit xcrush.historyBuffer historyOffset pSrcData
    historyOffset := historyOffset + pSrcData.length }

def xcrushMatches (historyOffset : Nat) (pSrcData : List UInt8) :
    Except (Int × XcrushContext) (XcrushContext × List XcrushMatchInfo) :=
  if pSrcData.length > 50 then
    match xcrushComputeSignatures xcrush.signatureCount pSrcData with
    | [] => .ok (xcrush, [])
    | signatures =>
      match xcrushFindAllMatches historyOffset pSrcData.length signatures ⟨xcrush, none, 0, 0, []⟩ with
      | .error e => .error e
      | .ok s =>
        match xcrushOptimizeMatches 0 s.originalMatches with
        | .error status => .error (status, s.xcrush)
        | .ok optimizedMatches => .ok (s.xcrush, optimizedMatches)
  else .ok (xcrush, [])

def xcrushCompressL1 : Except (Int × XcrushContext) XcrushL1 :=
  let atFront := if xcrush.historyOffset + pSrcData.length + 8 > xcrush.historyBufferSize then
      L1_PACKET_AT_FRONT else 0
  let historyOffset := xcrushPacketStart xcrush pSrcData.length
  match xcrushMatches (xcrushAppend xcrush pSrcData) historyOffset pSrcData with
  | .error e => .error e
  | .ok (xcrush, []) => .ok ⟨xcrush, pSrcData, atFront ||| L1_NO_COMPRESSION, []⟩
  | .ok (xcrush, optimizedMatches) =>
    match xcrushGenerateOutput xcrush pSrcData.length historyOffset optimizedMatches with
    | .error status => .error (status, xcrush)
    | .ok data => .ok ⟨xcrush, data, atFront ||| L1_COMPRESSED, optimizedMatches⟩

structure XcrushCompressed where
  xcrush : XcrushContext
  status : Int
  dstData : List UInt8
  flags : Nat

structure XcrushL2 where
  mppc : MppcContext
  status : Int
  data : List UInt8
  (dstSize flags : Nat)

def xcrushCompressL2 (mppc : MppcContext) (data : List UInt8) (pDstBuffer : Mem UInt8)
    (dstSize : Nat) : XcrushL2 :=
  if data.length > 50 then
    let result := mppcCompress mppc data ⟨fun i => pDstBuffer (i + 2)⟩ dstSize
    ⟨result.mppc, result.status, result.dstData, result.dstData.length, result.flags⟩
  else ⟨mppc, 0, [], dstSize, 0⟩

def xcrushFinish (level1ComprFlags level2ComprFlags : Nat) (data : List UInt8) (pDstSize : Nat) :
    XcrushCompressed :=
  let flags := if level2ComprFlags &&& PACKET_COMPRESSED ≠ 0 then
      level2ComprFlags ||| xcrush.compressionFlags else level2ComprFlags
  let xcrush := { xcrush with
    compressionFlags :=
      if level2ComprFlags &&& PACKET_COMPRESSED ≠ 0 then 0
      else if level2ComprFlags &&& PACKET_FLUSHED ≠ 0 then PACKET_FLUSHED
      else xcrush.compressionFlags }
  if pDstSize < data.length + 2 then ⟨xcrush, -1006, [], 0⟩
  else
    ⟨xcrush, 1, UInt8.ofNat (level1ComprFlags ||| L1_INNER_COMPRESSION) :: UInt8.ofNat flags :: data,
      PACKET_COMPRESSED ||| 3⟩

def xcrushCompress (pDstBuffer : Mem UInt8) (pDstSize : Nat) : XcrushCompressed :=
  let srcSize := pSrcData.length
  if srcSize > 16384 then ⟨xcrush, -1001, [], 0⟩
  else if srcSize + 2 > pDstSize then ⟨xcrush, -1002, [], 0⟩
  else
    match xcrushCompressL1 xcrush pSrcData with
    | .error (status, xcrush) => ⟨xcrush, status, [], 0⟩
    | .ok l1 =>
      if l1.flags &&& L1_COMPRESSED ≠ 0 ∧ l1.data.length > srcSize then ⟨l1.xcrush, -1003, [], 0⟩
      else if l1.flags &&& L1_COMPRESSED = 0 ∧ l1.data.length ≠ srcSize then ⟨l1.xcrush, -1004, [], 0⟩
      else
        let l2 := xcrushCompressL2 l1.xcrush.mppc l1.data pDstBuffer (sub32 srcSize 2)
        let xcrush := { l1.xcrush with mppc := l2.mppc }
        if l2.status < 0 then ⟨xcrush, l2.status, [], 0⟩
        else if l2.status = 0 ∨ l2.flags &&& PACKET_FLUSHED ≠ 0 then
          -- level 2 was not run, or starts over
          if l1.data.length > l2.dstSize then ⟨xcrushContextReset xcrush true, 1, pSrcData, 0⟩
          else xcrushFinish xcrush l1.flags l2.flags l1.data pDstSize
        else xcrushFinish xcrush l1.flags l2.flags l2.data pDstSize

/-! ## `xcrush_decompress` -/

/-- The distance is copied again and again. -/
def xcrushCopyBytesNoOverlap (mem : Mem UInt8) (diff : Nat) : Nat → Nat → Nat → Nat → Mem UInt8
  | 0, dst, src, rest => blit mem dst (block mem src rest)
  | rounds + 1, dst, src, rest =>
    xcrushCopyBytesNoOverlap (blit mem dst (block mem src diff)) diff rounds
      (dst + diff) (src + diff) rest

def xcrushCopyBytes (mem : Mem UInt8) (dst src num : Nat) : Mem UInt8 :=
  if src + num < dst ∨ src > dst + num then blit mem dst (block mem src num)
  else if src ≠ dst then
    let diff := if dst > src then dst - src else src - dst
    xcrushCopyBytesNoOverlap mem diff (num / diff) dst src (num % diff)
  else mem

structure XcrushDecoder where
  historyBuffer : Mem UInt8
  historyPtr : Nat
  literals : List UInt8
  outputOffset : Nat

def xcrushCopyLiterals (historyBufferSize outputLength : Nat) (s : XcrushDecoder) :
    Except (Int × Mem UInt8) XcrushDecoder :=
  if outputLength > 0 then
    if s.historyPtr + outputLength ≥ historyBufferSize ∨ s.literals.length = 0 ∨
        outputLength > s.literals.length then .error (-1009, s.historyBuffer)
    else .ok
      { historyBuffer := blit s.historyBuffer s.historyPtr (s.literals.take outputLength)
        historyPtr := s.historyPtr + outputLength
        literals := s.literals.drop outputLength
        outputOffset := s.outputOffset + outputLength }
  else .ok s

variable (historyBufferSize : Nat)

def xcrushDecompressMatch (details : List UInt8) (s : XcrushDecoder) :
    Except (Int × Mem UInt8) XcrushDecoder :=
  let matchLength := leValue (details.take 2)
  let matchOutputOffset := leValue ((details.drop 2).take 2)
  let matchHistoryOffset := leValue ((details.drop 4).take 4)
  if matchOutputOffset < s.outputOffset then .error (-1005, s.historyBuffer)
  else if matchLength > historyBufferSize then .error (-1006, s.historyBuffer)
  else if matchHistoryOffset > historyBufferSize then .error (-1007, s.historyBuffer)
  else if matchOutputOffset - s.outputOffset > historyBufferSize then .error (-1008, s.historyBuffer)
  else
    match xcrushCopyLiterals historyBufferSize (matchOutputOffset - s.outputOffset) s with
    | .error e => .error e
    | .ok s =>
      if s.historyPtr + matchLength ≥ historyBufferSize ∨
          matchHistoryOffset + matchLength ≥ historyBufferSize then .error (-1011, s.historyBuffer)
      else .ok
        { s with
          historyBuffer := xcrushCopyBytes s.historyBuffer s.historyPtr matchHistoryOffset matchLength
          historyPtr := s.historyPtr + matchLength
          outputOffset := s.outputOffset + matchLength }

def xcrushDecompressMatches (historyBufferSize : Nat) :
    Nat → List UInt8 → XcrushDecoder → Except (Int × Mem UInt8) XcrushDecoder
  | 0, _, s => .ok s
  | matchCount + 1, details, s =>
    match xcrushDecompressMatch historyBufferSize (details.take 8) s with
    | .error e => .error e
    | .ok s => xcrushDecompressMatches historyBufferSize matchCount (details.drop 8) s

def xcrushTrailingLiterals (s : XcrushDecoder) : Except (Int × Mem UInt8) XcrushDecoder :=
  if s.literals.length > 0 then
    if s.historyPtr + s.literals.length ≥ historyBufferSize then .error (-1012, s.historyBuffer)
    else .ok
      { s with
        historyBuffer := blit s.historyBuffer s.historyPtr s.literals
        historyPtr := s.historyPtr + s.literals.length
        literals := [] }
  else .ok s

def xcrushExpandL1 (flags : Nat) (pSrcData : List UInt8)
    (historyBuffer : Mem UInt8) (historyPtr : Nat) : Except (Int × Mem UInt8) XcrushDecoder :=
  if flags &&& L1_NO_COMPRESSION ≠ 0 then
    xcrushTrailingLiterals historyBufferSize ⟨historyBuffer, historyPtr, pSrcData, 0⟩
  else if flags &&& L1_COMPRESSED = 0 then .error (-1002, historyBuffer)
  else if 2 > pSrcData.length then .error (-1003, historyBuffer)
  else
    let matchCount := leValue (pSrcData.take 2)
    if 2 + 8 * matchCount > pSrcData.length then .error (-1004, historyBuffer)
    else
      match xcrushDecompressMatches historyBufferSize matchCount (pSrcData.drop 2)
          ⟨historyBuffer, historyPtr, pSrcData.drop (2 + 8 * matchCount), 0⟩ with
      | .error e => .error e
      | .ok s => xcrushTrailingLiterals historyBufferSize s

structure XcrushDecompressed where
  xcrush : XcrushContext
  status : Int
  dstData : List UInt8

def xcrushDecompressL1 (flags : Nat) : XcrushDecompressed :=
  if pSrcData.length < 1 then ⟨xcrush, -1001, []⟩
  else
    let historyOffset := if flags &&& L1_PACKET_AT_FRONT ≠ 0 then 0 else xcrush.historyOffset
    match xcrushExpandL1 xcrush.historyBufferSize flags pSrcData xcrush.historyBuffer historyOffset with
    | .error (status, historyBuffer) =>
      ⟨{ xcrush with historyBuffer := historyBuffer, historyOffset := historyOffset }, status, []⟩
    | .ok s =>
      ⟨{ xcrush with historyBuffer := s.historyBuffer, historyOffset := s.historyPtr }, 1,
        block s.historyBuffer historyOffset (s.historyPtr - historyOffset)⟩

def xcrushDecompress (flags : Nat) : XcrushDecompressed :=
  match pSrcData with
  | level1ComprFlags :: level2ComprFlags :: pSrcData =>
    let xcrush := if flags &&& PACKET_FLUSHED ≠ 0 then
        { xcrush with
          historyBuffer := zeroMemory xcrush.historyBufferSize xcrush.historyBuffer
          historyOffset := 0 }
      else xcrush
    if level2ComprFlags.toNat &&& PACKET_COMPRESSED = 0 then
      xcrushDecompressL1 xcrush pSrcData level1ComprFlags.toNat
    else
      let inner := mppcDecompress xcrush.mppc pSrcData level2ComprFlags.toNat
      let xcrush := { xcrush with mppc := inner.mppc }
      if inner.status < 0 then ⟨xcrush, inner.status, []⟩
      else xcrushDecompressL1 xcrush inner.dstData level1ComprFlags.toNat
  | _ => ⟨xcrush, -1, []⟩

end KvmServer.Codec
