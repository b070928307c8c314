import KvmServer.Lib.Memory
import KvmServer.Winpr.Stream

/-! # RDP 8.0 bulk compression (`codec/zgfx.c`)

The history is a ring of fixed size.  The bytes of `OutputBuffer` below `OutputCount` are a list.
`UINT32` counters wrap around.  A stream that is written to grows as it is asked to. -/

namespace KvmServer.Codec
open Lib Winpr

structure ZgfxToken where
  (prefixLength prefixCode valueBits tokenType valueBase : Nat)

def zgfxTokenTable : List ZgfxToken :=
  [⟨1, 0, 8, 0, 0⟩, ⟨5, 17, 5, 1, 0⟩, ⟨5, 18, 7, 1, 32⟩, ⟨5, 19, 9, 1, 160⟩, ⟨5, 20, 10, 1, 672⟩,
    ⟨5, 21, 12, 1, 1696⟩, ⟨5, 24, 0, 0, 0x00⟩, ⟨5, 25, 0, 0, 0x01⟩, ⟨6, 44, 14, 1, 5792⟩,
    ⟨6, 45, 15, 1, 22176⟩, ⟨6, 52, 0, 0, 0x02⟩, ⟨6, 53, 0, 0, 0x03⟩, ⟨6, 54, 0, 0, 0xFF⟩,
    ⟨7, 92, 18, 1, 54944⟩, ⟨7, 93, 20, 1, 317088⟩, ⟨7, 110, 0, 0, 0x04⟩, ⟨7, 111, 0, 0, 0x05⟩,
    ⟨7, 112, 0, 0, 0x06⟩, ⟨7, 113, 0, 0, 0x07⟩, ⟨7, 114, 0, 0, 0x08⟩, ⟨7, 115, 0, 0, 0x09⟩,
    ⟨7, 116, 0, 0, 0x0A⟩, ⟨7, 117, 0, 0, 0x0B⟩, ⟨7, 118, 0, 0, 0x3A⟩, ⟨7, 119, 0, 0, 0x3B⟩,
    ⟨7, 120, 0, 0, 0x3C⟩, ⟨7, 121, 0, 0, 0x3D⟩, ⟨7, 122, 0, 0, 0x3E⟩, ⟨7, 123, 0, 0, 0x3F⟩,
    ⟨7, 124, 0, 0, 0x40⟩, ⟨7, 125, 0, 0, 0x80⟩, ⟨8, 188, 20, 1, 1365664⟩, ⟨8, 189, 21, 1, 2414240⟩,
    ⟨8, 252, 0, 0, 0x0C⟩, ⟨8, 253, 0, 0, 0x38⟩, ⟨8, 254, 0, 0, 0x39⟩, ⟨8, 255, 0, 0, 0x66⟩,
    ⟨9, 380, 22, 1, 4511392⟩, ⟨9, 381, 23, 1, 8705696⟩, ⟨9, 382, 24, 1, 17094304⟩]

def zgfxHistoryBufferSize : Nat := 2500000

def zgfxOutputSize : Nat := 65536

structure ZgfxContext where
  historyBuffer : Mem UInt8
  historyIndex : Nat
  outputBuffer : List UInt8

def zgfxContextNew : ZgfxContext := ⟨⟨fun _ => 0⟩, 0, []⟩

/-! ## The history ring -/

variable (zgfx : ZgfxContext)

def zgfxHistoryBufferRingWrite (src : List UInt8) : ZgfxContext :=
  if src.length = 0 then zgfx
  else
    let residue := src.length - zgfxHistoryBufferSize
    let index :=
      if src.length > zgfxHistoryBufferSize then (zgfx.historyIndex + residue) % zgfxHistoryBufferSize
      else zgfx.historyIndex
    let src := src.drop residue
    if index + src.length ≤ zgfxHistoryBufferSize then
      { zgfx with
        historyBuffer := blit zgfx.historyBuffer index src
        historyIndex := if index + src.length = zgfxHistoryBufferSize then 0 else index + src.length }
    else
      let front := zgfxHistoryBufferSize - index
      { zgfx with
        historyBuffer := blit (blit zgfx.historyBuffer index (src.take front)) 0 (src.drop front)
        historyIndex := src.length - front }

def repeatOutput : Nat → Nat → List UInt8 → List UInt8
  | 0, _, dst => dst
  | fuel + 1, bytesLeft, dst =>
    if bytesLeft = 0 then dst
    else
      let bytes := if dst.length > bytesLeft then bytesLeft else dst.length
      repeatOutput fuel (bytesLeft - bytes) (dst ++ dst.take bytes)

/-- Nothing is copied for a `count` of `INT32_MAX + 1` or more. -/
def zgfxHistoryBufferRingRead (offset count : Nat) : List UInt8 :=
  if count > 2 ^ 31 - 1 then []
  else
    let index :=
      (zgfx.historyIndex + zgfxHistoryBufferSize + 2 ^ 32 - offset) % 2 ^ 32 % zgfxHistoryBufferSize
    let bytes := min count offset
    let first :=
      if index + bytes ≤ zgfxHistoryBufferSize then block zgfx.historyBuffer index bytes
      else
        let front := zgfxHistoryBufferSize - index
        block zgfx.historyBuffer index front ++ block zgfx.historyBuffer 0 (bytes - front)
    repeatOutput count (count - bytes) first

/-! ## Segments -/

structure ZgfxBits where
  input : List UInt8
  (bits cBitsRemaining bitsCurrent cBitsCurrent : Nat)

/-- The `while` loop of `zgfx_GetBits`: a byte at a time, zeros after the end. -/
def zgfxFillBits : Nat → Nat → ZgfxBits → ZgfxBits
  | 0, _, s => s
  | fuel + 1, nbits, s =>
    if s.cBitsCurrent < nbits then
      zgfxFillBits fuel nbits
        { s with
          input := s.input.tail
          bitsCurrent := (s.bitsCurrent * 2 ^ 8 + (s.input.headD 0).toNat) % 2 ^ 32
          cBitsCurrent := s.cBitsCurrent + 8 }
    else s

variable (s : ZgfxBits)

def zgfxGetBits (nbits : Nat) : ZgfxBits :=
  let s := zgfxFillBits nbits nbits s
  let cBitsCurrent := s.cBitsCurrent - nbits
  { s with
    cBitsRemaining := (s.cBitsRemaining + 2 ^ 32 - nbits) % 2 ^ 32
    cBitsCurrent := cBitsCurrent
    bits := s.bitsCurrent / 2 ^ cBitsCurrent
    bitsCurrent := s.bitsCurrent % 2 ^ cBitsCurrent }

def zgfxReadPrefix : Nat → Nat × ZgfxBits → Nat × ZgfxBits
  | 0, state => state
  | n + 1, (inPrefix, s) =>
    let s := zgfxGetBits s 1
    zgfxReadPrefix n ((inPrefix * 2 + s.bits) % 2 ^ 32, s)

def zgfxFindToken : List ZgfxToken → Nat → Nat × ZgfxBits → Option ZgfxToken × ZgfxBits
  | [], _, (_, s) => (none, s)
  | token :: tokens, haveBits, state =>
    let state := zgfxReadPrefix (token.prefixLength - haveBits) state
    if state.1 = token.prefixCode then (some token, state.2)
    else zgfxFindToken tokens (max haveBits token.prefixLength) state

def zgfxReadCount : Nat → Nat → Nat → ZgfxBits → Nat × Nat × ZgfxBits
  | 0, count, extra, s => (count, extra, s)
  | fuel + 1, count, extra, s =>
    if s.bits = 1 then zgfxReadCount fuel (count * 2 % 2 ^ 32) (extra + 1) (zgfxGetBits s 1)
    else (count, extra, s)

def zgfxLiteral (c : UInt8) : ZgfxContext :=
  let index := zgfx.historyIndex + 1
  { zgfx with
    historyBuffer := store zgfx.historyBuffer zgfx.historyIndex c
    historyIndex := if index = zgfxHistoryBufferSize then 0 else index }

def zgfxMatchCount : Nat × ZgfxBits :=
  let s := zgfxGetBits s 1
  if s.bits = 0 then (3, s)
  else
    let (count, extra, s) := zgfxReadCount (8 * s.input.length + 32) 4 2 (zgfxGetBits s 1)
    let s := zgfxGetBits s extra
    ((count + s.bits) % 2 ^ 32, s)

/-- A match, after its distance was read; `none` is a `FALSE`. -/
def zgfxMatch (distance : Nat) : ZgfxContext × Option ZgfxBits :=
  let (count, s) := zgfxMatchCount s
  if count > zgfxOutputSize - zgfx.outputBuffer.length then (zgfx, none)
  else
    let copied := zgfxHistoryBufferRingRead zgfx distance count
    let zgfx := zgfxHistoryBufferRingWrite zgfx copied
    ({ zgfx with outputBuffer := zgfx.outputBuffer ++ copied }, some s)

def zgfxUnencoded : ZgfxContext × Option ZgfxBits :=
  let s := zgfxGetBits s 15
  let count := s.bits
  let cBitsRemaining := (s.cBitsRemaining + 2 ^ 32 - s.cBitsCurrent) % 2 ^ 32
  if count > zgfxOutputSize - zgfx.outputBuffer.length then (zgfx, none)
  else if count > cBitsRemaining / 8 then (zgfx, none)
  else if count > s.input.length then (zgfx, none)
  else
    let zgfx := zgfxHistoryBufferRingWrite zgfx (s.input.take count)
    ({ zgfx with outputBuffer := zgfx.outputBuffer ++ s.input.take count },
      some
        { s with
          input := s.input.drop count
          cBitsCurrent := 0
          bitsCurrent := 0
          cBitsRemaining := (cBitsRemaining + 2 ^ 32 - 8 * count) % 2 ^ 32 })

/-- A token after its prefix was read.  A literal is in the history before the output is found to be
full. -/
def zgfxToken (token : ZgfxToken) : ZgfxContext × Option ZgfxBits :=
  let s := zgfxGetBits s token.valueBits
  if token.tokenType = 0 then
    let c := UInt8.ofNat (token.valueBase + s.bits)
    let written := zgfxLiteral zgfx c
    if zgfx.outputBuffer.length ≥ zgfxOutputSize then (written, none)
    else ({ written with outputBuffer := zgfx.outputBuffer ++ [c] }, some s)
  else
    let distance := token.valueBase + s.bits
    if distance ≠ 0 then zgfxMatch zgfx s distance else zgfxUnencoded zgfx s

def zgfxTokens : Nat → ZgfxContext → ZgfxBits → ZgfxContext × Bool
  | 0, zgfx, _ => (zgfx, false)
  | fuel + 1, zgfx, s =>
    if s.cBitsRemaining = 0 then (zgfx, true)
    else
      match zgfxFindToken zgfxTokenTable 0 (0, s) with
      | (none, s) => zgfxTokens fuel zgfx s
      | (some token, s) =>
        match zgfxToken zgfx s token with
        | (zgfx, none) => (zgfx, false)
        | (zgfx, some s) => zgfxTokens fuel zgfx s

/-- The stream after the segment, or `none` for a `FALSE`.  Every token reads input or writes output, so
the fuel is enough. -/
def zgfxDecompressSegment (stream : List UInt8) (segmentSize : Nat) :
    ZgfxContext × Option (List UInt8) :=
  if segmentSize < 2 then (zgfx, none)
  else if stream.length < segmentSize then (zgfx, none)
  else
    match stream with
    | [] => (zgfx, none)
    | flags :: stream =>
      let cbSegment := segmentSize - 1
      let segment := stream.take cbSegment
      let zgfx := { zgfx with outputBuffer := [] }
      if flags &&& 0x20 = 0 then
        let zgfx := zgfxHistoryBufferRingWrite zgfx segment
        if cbSegment > zgfxOutputSize then (zgfx, none)
        else ({ zgfx with outputBuffer := segment }, some (stream.drop cbSegment))
      else
        let last := (segment.getLastD 0).toNat
        let bits := 8 * (cbSegment - 1)
        if bits > 2 ^ 32 - 1 then (zgfx, none)
        else if bits < last then (zgfx, none)
        else
          let (zgfx, ok) := zgfxTokens (8 * segmentSize + zgfxOutputSize + 1) zgfx
            ⟨segment.dropLast, 0, bits - last, 0, 0⟩
          (zgfx, if ok then some (stream.drop cbSegment) else none)

/-! ## Decompression -/

def ZGFX_SEGMENTED_SINGLE : UInt8 := 0xE0

def ZGFX_SEGMENTED_MULTIPART : UInt8 := 0xE1

def ZGFX_SEGMENTED_MAXSIZE : Nat := 65535

def zgfxAppend (concatenated : List UInt8) (uncompressedSize : Nat) : Option (List UInt8) :=
  let used := concatenated.length
  if zgfx.outputBuffer.length > 2 ^ 32 - 1 - used then none
  else if used + zgfx.outputBuffer.length > uncompressedSize then none
  else some (concatenated ++ zgfx.outputBuffer)

def zgfxSegments (uncompressedSize : Nat) :
    Nat → ZgfxContext → List UInt8 → List UInt8 → ZgfxContext × Option (List UInt8)
  | 0, zgfx, _, concatenated => (zgfx, some concatenated)
  | segments + 1, zgfx, stream, concatenated =>
    match streamReadLE 4 stream with
    | none => (zgfx, none)
    | some (segmentSize, stream) =>
      match zgfxDecompressSegment zgfx stream segmentSize with
      | (zgfx, none) => (zgfx, none)
      | (zgfx, some stream) =>
        match zgfxAppend zgfx concatenated uncompressedSize with
        | none => (zgfx, none)
        | some concatenated => zgfxSegments uncompressedSize segments zgfx stream concatenated

def zgfxDecompressSingle (stream : List UInt8) : ZgfxContext × Option (List UInt8) :=
  match zgfxDecompressSegment zgfx stream stream.length with
  | (zgfx, none) => (zgfx, none)
  | (zgfx, some _) =>
    if zgfx.outputBuffer.length > 0 then (zgfx, zgfxAppend zgfx [] zgfx.outputBuffer.length)
    else (zgfx, some [])

def zgfxCheckUsed (uncompressedSize : Nat) :
    ZgfxContext × Option (List UInt8) → ZgfxContext × Option (List UInt8)
  | (zgfx, none) => (zgfx, none)
  | (zgfx, some concatenated) =>
    if concatenated.length = uncompressedSize then (zgfx, some concatenated) else (zgfx, none)

def zgfxDecompressMultipart (stream : List UInt8) : ZgfxContext × Option (List UInt8) :=
  match streamReadLE 2 stream with
  | none => (zgfx, none)
  | some (segmentCount, stream) =>
    match streamReadLE 4 stream with
    | none => (zgfx, none)
    | some (uncompressedSize, stream) =>
      zgfxCheckUsed uncompressedSize (zgfxSegments uncompressedSize segmentCount zgfx stream [])

/-- `pSrcData` and the `UINT32` that says how many bytes of it to read. -/
def zgfxDecompress (pSrcData : List UInt8) (SrcSize : UInt32) : ZgfxContext × Option (List UInt8) :=
  match pSrcData.take SrcSize.toNat with
  | [] => (zgfx, none)
  | descriptor :: stream =>
    if descriptor = ZGFX_SEGMENTED_SINGLE then zgfxDecompressSingle zgfx stream
    else if descriptor = ZGFX_SEGMENTED_MULTIPART then zgfxDecompressMultipart zgfx stream
    else (zgfx, none)

/-! ## Compression -/

def writeAt (written : List UInt8) (position : Nat) (bytes : List UInt8) : List UInt8 :=
  written.take position ++ bytes ++ written.drop (position + bytes.length)

/-- The raw copy that stands for compression. -/
def zgfxCompressSegment (written pSrcData : List UInt8) (flags : Nat) :
    Except Stop (List UInt8 × Nat) := do
  let flags := flags ||| 0x04
  let header ← assertingCast 8 flags
  return (written ++ UInt8.ofNat header :: pSrcData, flags)

structure ZgfxOut where
  written : List UInt8
  (flags fragment posSegmentCount : Nat)

def zgfxDescriptor (uncompressedSize : Nat) (multipart : Bool) (out : ZgfxOut) : ZgfxOut :=
  if multipart then
    let written := out.written ++ [ZGFX_SEGMENTED_MULTIPART]
    -- two bytes are left out for the segment count
    { out with
      written := written ++ [0, 0] ++ leBytes 4 uncompressedSize
      posSegmentCount := written.length }
  else { out with written := out.written ++ [ZGFX_SEGMENTED_SINGLE] }

/-- A segment; with `hasSize` four bytes are left out in front, to be filled in once the size is
known. -/
def zgfxSegmentOut (hasSize : Bool) (pSrcData : List UInt8) (out : ZgfxOut) : Except Stop ZgfxOut := do
  let posDstSize := out.written.length
  let seeked := if hasSize then out.written ++ [0, 0, 0, 0] else out.written
  let (written, flags) ← zgfxCompressSegment seeked pSrcData out.flags
  let DstSize := written.length - seeked.length
  if hasSize ∧ DstSize > 2 ^ 32 - 1 then .error .refused
  else
    return { out with
      written := if hasSize then writeAt written posDstSize (leBytes 4 DstSize) else written
      flags := flags
      fragment := out.fragment + 1 }

def zgfxFragment (uncompressedSize totalLength : Nat) (pSrcData : List UInt8) (out : ZgfxOut) :
    Except Stop ZgfxOut :=
  let multipart : Bool := totalLength > 0
  zgfxSegmentOut (out.fragment > 0 || multipart) pSrcData
    (if out.fragment = 0 then zgfxDescriptor uncompressedSize multipart out else out)

def zgfxFragments (uncompressedSize : Nat) (pSrcData : List UInt8) (out : ZgfxOut) :
    Except Stop ZgfxOut := do
  let out ← zgfxFragment uncompressedSize (pSrcData.length - ZGFX_SEGMENTED_MAXSIZE)
    (pSrcData.take ZGFX_SEGMENTED_MAXSIZE) out
  if pSrcData.length > ZGFX_SEGMENTED_MAXSIZE then
    zgfxFragments uncompressedSize (pSrcData.drop ZGFX_SEGMENTED_MAXSIZE) out
  else return out
termination_by pSrcData.length
decreasing_by
  rw [List.length_drop]
  unfold ZGFX_SEGMENTED_MAXSIZE at *
  omega

def zgfxFillSegmentCount (out : ZgfxOut) : Except Stop (List UInt8) :=
  if out.posSegmentCount ≠ 0 then do
    let fragment ← assertingCast 16 out.fragment
    return writeAt out.written out.posSegmentCount (leBytes 2 fragment)
  else return out.written

/-- `sDst` is what was written to the stream before, and the result what is there afterwards. -/
def zgfxCompressToStream (sDst pUncompressed : List UInt8) (flags : Nat) : Except Stop (List UInt8) := do
  let out ← zgfxFragments pUncompressed.length pUncompressed ⟨sDst, flags, 0, 0⟩
  zgfxFillSegmentCount out

end KvmServer.Codec
