import KvmServer.Codec.Clear
import KvmServer.Lib.Records

/-! # ClearCodec messages (`codec/clear.c`)

The sections of a message are read one after the other from one stream.  Allocations succeed, and whether
`freerdp_image_copy_no_overlap` and `nsc_process_message` do is given with the call. -/

namespace KvmServer.Codec
open Lib Winpr

def CLEARCODEC_FLAG_GLYPH_INDEX : UInt8 := 0x01

def CLEARCODEC_FLAG_GLYPH_HIT : UInt8 := 0x02

def CLEARCODEC_FLAG_CACHE_RESET : UInt8 := 0x04

inductive ClearSource where
  | glyph (index : Nat)
  | runs (pixels : List (UInt32 × Nat))
  | bytes (data : List UInt8)

structure ClearCall where
  hasDst : Bool
  dst : ClearDestination
  pSrcData : List UInt8
  /-- `SrcSize` is a `UINT32`. -/
  fits : pSrcData.length < 2 ^ 32
  fmt : ClearFormats
  /-- `nsc_context_set_parameters` -/
  formatSet : Bool
  /-- `freerdp_image_copy_no_overlap`, after the clipping of `convert_color`. -/
  imageCopy : (nXDst nYDst nWidth nHeight : UInt32) → ClearSource → Bool
  nscProcessMessage : (width height : Nat) → (nXDst nYDst : UInt32) → List UInt8 → Bool

structure ClearGlyphEntry where
  (size count : Nat)

structure ClearCaches where
  bars : ClearContext
  glyphCache : Nat → ClearGlyphEntry

def clearResetVbarStorage (clear : ClearContext) : ClearContext :=
  { clear with vBarStorageCursor := 0, shortVBarStorageCursor := 0 }

/-- One byte, or two or four behind the escapes 0xFF and 0xFFFF. -/
def clearRunLength (bytes : List UInt8) : Option (Nat × List UInt8) :=
  (streamReadLE 1 bytes).bind fun (runLengthFactor, bytes) =>
    if runLengthFactor ≥ 0xFF then
      (streamReadLE 2 bytes).bind fun (runLengthFactor, bytes) =>
        if runLengthFactor ≥ 0xFFFF then streamReadLE 4 bytes else some (runLengthFactor, bytes)
    else some (runLengthFactor, bytes)

theorem clearRunLength_rest {bytes rest : List UInt8} {runLenFactor : Nat}
    (read : clearRunLength bytes = some (runLenFactor, rest)) : rest.length < bytes.length := by
  obtain ⟨⟨_, _⟩, read₁, read⟩ := Option.bind_eq_some_iff.mp read
  have len₁ := streamReadLE_rest read₁
  dsimp only at read
  split at read
  · obtain ⟨⟨_, _⟩, read₂, read⟩ := Option.bind_eq_some_iff.mp read
    have len₂ := streamReadLE_rest read₂
    dsimp only at read
    split at read
    · have len₃ := streamReadLE_rest read
      omega
    · cases read
      omega
  · cases read
    omega

section
variable (call : ClearCall)

def convertColor (nXDst nYDst nWidth nHeight : UInt32) (src : ClearSource) : Bool :=
  let nWidth := if nWidth + nXDst > call.dst.nDstWidth then call.dst.nDstWidth - nXDst else nWidth
  let nHeight := if nHeight + nYDst > call.dst.nDstHeight then call.dst.nDstHeight - nYDst else nHeight
  call.imageCopy nXDst nYDst nWidth nHeight src

/-! ## The residual section -/

structure ResidualState where
  pixelIndex : Nat
  runs : List (UInt32 × Nat)

def residualRun (pixelCount : Nat) (state : ResidualState) :
    List UInt8 → Option (ResidualState × Nat × List UInt8)
  | b :: g :: r :: bytes =>
    (clearRunLength bytes).bind fun (runLengthFactor, rest) =>
      if state.pixelIndex ≥ pixelCount ∨ runLengthFactor > pixelCount - state.pixelIndex then none
      else
        some (⟨state.pixelIndex + runLengthFactor,
          state.runs ++ [(call.fmt.getColor r g b, runLengthFactor)]⟩,
          3 + (bytes.length - rest.length), rest)
  | _ => none

theorem residualRun_honest (pixelCount : Nat) : HonestWhen (residualRun call pixelCount) fun _ =>
    True := by
  intro _ bytes _ _ _ run _
  unfold residualRun at run
  split at run
  next b g r bytes =>
    obtain ⟨⟨_, _⟩, read, run⟩ := Option.bind_eq_some_iff.mp run
    have lt := clearRunLength_rest read
    dsimp only at run
    split at run
    · cases run
    · cases run
      refine ⟨trivial, by omega, ?_⟩
      simp only [List.length_cons]
      omega
  next => cases run

def clearDecompressResidualData (residualByteCount : Nat) (bytes : List UInt8) : Option (List UInt8) :=
  if bytes.length < residualByteCount then none
  else
    let pixelCount := call.dst.nWidth.toNat * call.dst.nHeight.toNat
    (readUntil (residualRun_honest call pixelCount).progresses residualByteCount
      ⟨0, []⟩ bytes 0).bind fun (state, rest) =>
      if state.pixelIndex ≠ pixelCount then none
      else if convertColor call call.dst.nXDst call.dst.nYDst call.dst.nWidth call.dst.nHeight
        (.runs state.runs) then
        some rest
      else none

def clearBand (clear : ClearContext) (bytes : List UInt8) : Option (ClearContext × Nat × List UInt8) :=
  (readBand call.fmt bytes).bind fun (band, rest) =>
    (walkBand call.fmt (drawVBar call.fmt call.dst) band
      (band.xEnd - band.xStart + 1) 0 clear rest).2.map
      fun (clear, rest) => (clear, bytes.length - rest.length, rest)

theorem clearBand_honest : HonestWhen (clearBand call) fun _ => True := by
  intro _ _ _ _ _ read _
  obtain ⟨⟨_, _⟩, header, read⟩ := Option.bind_eq_some_iff.mp read
  obtain ⟨⟨_, _⟩, walked, same⟩ := Option.map_eq_some_iff.mp read
  cases same
  have lt := readBand_rest call.fmt header
  have notLonger := walkBand_rest call.fmt (drawVBar call.fmt call.dst) walked
  dsimp only at notLonger
  exact ⟨trivial, by omega, by omega⟩

def clearBands (bandsByteCount : Nat) (clear : ClearContext) (bytes : List UInt8) :
    Option (ClearContext × List UInt8) :=
  if bytes.length < bandsByteCount then none
  else readUntil (clearBand_honest call).progresses bandsByteCount clear bytes 0

/-- The bands section is read exactly if `clearDecompressBandsData` draws all of it. -/
theorem clearBands_isSome (bandsByteCount : UInt32) (clear : ClearContext) (bytes : List UInt8) :
    (clearBands call bandsByteCount.toNat clear bytes).isSome =
      (clearDecompressBandsData call.fmt call.dst clear bandsByteCount bytes).2 := by
  have bands : ∀ (length : Nat) {clear : ClearContext} {bytes : List UInt8} (offset : Nat),
      bytes.length = length →
      (readUntil (clearBand_honest call).progresses bandsByteCount.toNat clear bytes offset).isSome =
        (walkBands call.fmt (drawVBar call.fmt call.dst) bandsByteCount.toNat clear bytes offset).2 := by
    intro length
    induction length using Nat.strongRecOn with
    | ind length ih =>
      intro clear bytes offset size
      rw [walkBands]
      by_cases more : offset < bandsByteCount.toNat
      · rw [if_pos more]
        split
        · next failed =>
          rw [readUntil_of_none _ more (by rw [clearBand, failed]; rfl)]
          rfl
        · next band rest read =>
          split
          · next failed =>
            rw [readUntil_of_none _ more
              (by simp only [clearBand, read, Option.bind_some, failed, Option.map_none])]
            rfl
          · next clear' rest' walked =>
            have step :
                clearBand call clear bytes = some (clear', bytes.length - rest'.length, rest') := by
              simp only [clearBand, read, Option.bind_some, walked, Option.map_some]
            rw [readUntil_of_step _ more step]
            exact ih rest'.length (size ▸ (clearBand_honest call).progresses step) _ rfl
      · rw [if_neg more, readUntil_of_reached _ _ _ more]
        rfl
  unfold clearBands clearDecompressBandsData
  by_cases short : bytes.length < bandsByteCount.toNat
  · rw [if_pos short, if_neg (not_le.mpr short)]
    rfl
  · rw [if_neg short, if_pos (not_lt.mp short)]
    exact bands _ 0 rfl

/-! ## The subcodecs section -/

structure RlexState where
  pixelIndex : Nat
  pixels : List UInt32

/-- A segment: a run of the suite's first color, then the suite. -/
def rlexSegment (palette : List UInt32) (pixelCount : Nat) (state : RlexState) (bytes : List UInt8) :
    Option (RlexState × Nat × List UInt8) :=
  -- `CLEAR_LOG2_FLOOR` is the binary logarithm
  let numBits := Nat.log2 (palette.length - 1) + 1
  (streamReadLE 1 bytes).bind fun (tmp, middle) =>
    (clearRunLength middle).bind fun (runLengthFactor, rest) =>
      let suiteDepth := (tmp >>> numBits) &&& (2 ^ (8 - numBits) - 1)
      let stopIndex := tmp &&& (2 ^ numBits - 1)
      let startIndex := (stopIndex + 2 ^ 8 - suiteDepth) % 2 ^ 8
      if startIndex ≥ palette.length then none
      else if stopIndex ≥ palette.length then none
      else if state.pixelIndex + runLengthFactor > pixelCount then none
      else if state.pixelIndex + runLengthFactor + (suiteDepth + 1) > pixelCount then none
      else
        some (⟨state.pixelIndex + runLengthFactor + (suiteDepth + 1),
            state.pixels ++ .replicate runLengthFactor (palette.getD startIndex 0) ++
              (palette.drop startIndex).take (suiteDepth + 1)⟩,
          bytes.length - rest.length, rest)

theorem rlexSegment_honest (palette : List UInt32) (pixelCount : Nat) :
    HonestWhen (rlexSegment palette pixelCount) fun _ => True := by
  intro _ _ _ _ _ seg _
  obtain ⟨⟨_, _⟩, read, seg⟩ := Option.bind_eq_some_iff.mp seg
  obtain ⟨⟨_, _⟩, readRun, seg⟩ := Option.bind_eq_some_iff.mp seg
  have fst := streamReadLE_rest read
  have second := clearRunLength_rest readRun
  dsimp only at seg
  iterate 4
    split at seg
    · cases seg
  cases seg
  exact ⟨trivial, by omega, by omega⟩

def rlexPalette : List UInt8 → Option (List UInt32 × List UInt8)
  | [] => none
  | paletteCount :: bytes =>
    if paletteCount.toNat > 127 ∨ paletteCount.toNat < 1 then none
    else if bytes.length < paletteCount.toNat * 3 then none
    else some (readColors call.fmt (bytes.take (paletteCount.toNat * 3)),
      bytes.drop (paletteCount.toNat * 3))

def clearDecompressSubcodeRlex (bitmapDataByteCount width height : Nat) (bytes : List UInt8) :
    Option (List UInt8) :=
  (rlexPalette call bytes).bind fun (palette, middle) =>
    (readUntil
      (rlexSegment_honest palette (width * height)).progresses bitmapDataByteCount ⟨0, []⟩ middle
      (bytes.length - middle.length)).bind fun (state, rest) =>
        if state.pixelIndex ≠ width * height then none else some rest

variable {bytes rest : List UInt8} {bitmapDataByteCount width height : Nat}

theorem rlexPalette_rest {mid : List UInt8} {palette : List UInt32}
    (read : rlexPalette call bytes = some (palette, mid)) : mid.length < bytes.length := by
  unfold rlexPalette at read
  iterate 3
    split at read
    · cases read
  · cases read
    simp only [List.length_drop, List.length_cons]
    omega

theorem subcodeRlex_rest
    (dec : clearDecompressSubcodeRlex call bitmapDataByteCount width height bytes = some rest) :
    rest.length ≤ bytes.length := by
  obtain ⟨⟨_, _⟩, read, dec⟩ := Option.bind_eq_some_iff.mp dec
  obtain ⟨⟨_, _⟩, segs, dec⟩ := Option.bind_eq_some_iff.mp dec
  dsimp only at dec
  split at dec
  · cases dec
  · cases dec
    exact le_trans (readUntil_rest segs) (le_of_lt (rlexPalette_rest call read))

structure ClearBitmap where
  (width height bitmapDataByteCount subcodecId : Nat)
  (data rest : List UInt8)

def clearBitmapData (xStart yStart width height bitmapDataByteCount subcodecId : Nat)
    (bytes : List UInt8) :
    Option (List UInt8) :=
  let nXDstRel := call.dst.nXDst + .ofNat xStart
  let nYDstRel := call.dst.nYDst + .ofNat yStart
  match subcodecId with
  | 0 =>
    if bitmapDataByteCount ≠ width * 3 * height then none
    else if convertColor call nXDstRel nYDstRel (.ofNat width) (.ofNat height)
      (.bytes (bytes.take bitmapDataByteCount))
    then some (bytes.drop bitmapDataByteCount)
    else none
  | 1 =>
    if call.nscProcessMessage width height nXDstRel nYDstRel (bytes.take bitmapDataByteCount) then
      some (bytes.drop bitmapDataByteCount)
    else none
  | 2 => clearDecompressSubcodeRlex call bitmapDataByteCount width height bytes
  | _ => none

theorem clearBitmapData_rest {xSt ySt subcodecId : Nat}
    (dec : clearBitmapData call xSt ySt width height bitmapDataByteCount subcodecId bytes = some rest) :
    rest.length ≤ bytes.length := by
  unfold clearBitmapData at dec
  dsimp only at dec
  split at dec
  · split at dec
    · cases dec
    split at dec <;> cases dec
    exact List.length_drop ▸ Nat.sub_le _ _
  · split at dec <;> cases dec
    exact List.length_drop ▸ Nat.sub_le _ _
  · exact subcodeRlex_rest call dec
  · cases dec

def clearSubcodec (bitmaps : List ClearBitmap) (bytes : List UInt8) :
    Option (List ClearBitmap × Nat × List UInt8) := do
  let (xStart, bytes) ← streamReadLE 2 bytes
  let (yStart, bytes) ← streamReadLE 2 bytes
  let (width, bytes) ← streamReadLE 2 bytes
  let (height, bytes) ← streamReadLE 2 bytes
  let (bitmapDataByteCount, bytes) ← streamReadLE 4 bytes
  let (subcodecId, bytes) ← streamReadLE 1 bytes
  if bytes.length < bitmapDataByteCount then none
  else if xStart + width > call.dst.nWidth.toNat then none
  else if yStart + height > call.dst.nHeight.toNat then none
  else
    let rest ← clearBitmapData call xStart yStart width height bitmapDataByteCount subcodecId bytes
    return (bitmaps ++ [⟨width, height, bitmapDataByteCount, subcodecId, bytes, rest⟩],
      13 + bitmapDataByteCount, rest)

theorem clearSubcodec_cases {bitmaps bitmaps' : List ClearBitmap} {size : Nat}
    (read : clearSubcodec call bitmaps bytes = some (bitmaps', size, rest)) :
    ∃ xSt ySt bitmap, bitmaps' = bitmaps ++ [bitmap] ∧ size = 13 + bitmap.bitmapDataByteCount ∧
      bitmap.rest = rest ∧ bytes.length = 13 + bitmap.data.length ∧
      bitmap.bitmapDataByteCount ≤ bitmap.data.length ∧
      clearBitmapData call xSt ySt bitmap.width bitmap.height bitmap.bitmapDataByteCount
      bitmap.subcodecId bitmap.data = some rest := by
  unfold clearSubcodec at read
  simp only [Option.bind_eq_bind, Option.bind_eq_some_iff, Prod.exists] at read
  obtain ⟨xSt, _, read₁, ySt, _, read₂, width, _, read₃, height, _, read₄, _, _,
    read₅, subcodecId, _, read₆, read⟩ := read
  have len₁ := streamReadLE_rest read₁
  have len₂ := streamReadLE_rest read₂
  have len₃ := streamReadLE_rest read₃
  have len₄ := streamReadLE_rest read₄
  have len₅ := streamReadLE_rest read₅
  have len₆ := streamReadLE_rest read₆
  iterate 3
    split at read
    · cases read
  obtain ⟨_, dec, same⟩ := Option.bind_eq_some_iff.mp read
  cases same
  exact ⟨xSt, ySt, _, rfl, rfl, rfl, by dsimp only; omega, by dsimp only; omega, dec⟩

theorem clearSubcodec_progresses : Progresses (clearSubcodec call) := by
  intro _ _ _ _ _ read
  obtain ⟨_, _, _, -, -, -, _, -, dec⟩ := clearSubcodec_cases call read
  have notLonger := clearBitmapData_rest call dec
  omega

def clearDecompressSubcodecsData (subcodecByteCount : Nat) (bytes : List UInt8) :
    Option (List ClearBitmap × List UInt8) :=
  if bytes.length < subcodecByteCount then none
  else readUntil (clearSubcodec_progresses call) subcodecByteCount [] bytes 0

/-! ## A message -/

def clearDecompressGlyphData (glyphFlags : UInt8) (glyphCache : Nat → ClearGlyphEntry)
    (bytes : List UInt8) :
    Option (Option Nat × (Nat → ClearGlyphEntry) × List UInt8) :=
  let pixelCount := call.dst.nWidth.toNat * call.dst.nHeight.toNat
  if glyphFlags &&& CLEARCODEC_FLAG_GLYPH_HIT ≠ 0 ∧
    glyphFlags &&& CLEARCODEC_FLAG_GLYPH_INDEX = 0 then none
  else if glyphFlags &&& CLEARCODEC_FLAG_GLYPH_INDEX = 0 then some (none, glyphCache, bytes)
  else if pixelCount > 1024 * 1024 then none
  else
    (streamReadLE 2 bytes).bind fun (glyphIndex, bytes) =>
      if glyphIndex ≥ 4000 then none
      else
        let glyphEntry := glyphCache glyphIndex
        if glyphFlags &&& CLEARCODEC_FLAG_GLYPH_HIT ≠ 0 then
          if glyphEntry.size = 0 then none
          else if pixelCount > glyphEntry.count then none
          else if convertColor call call.dst.nXDst call.dst.nYDst call.dst.nWidth call.dst.nHeight
            (.glyph glyphIndex) then
            some (none, glyphCache, bytes)
          else none
        else
          let glyphEntry : ClearGlyphEntry := ⟨max pixelCount glyphEntry.size, pixelCount⟩
          if glyphEntry.size = 0 then none
          else some (some glyphIndex, fun k => if k = glyphIndex then glyphEntry else glyphCache k,
            bytes)

structure ClearPayload where
  (residualByteCount bandsByteCount subcodecByteCount : Nat)
  caches : ClearCaches
  (body afterResidual afterBands afterSubcodecs : List UInt8)
  bitmaps : List ClearBitmap

def clearSections (caches : ClearCaches) (residualByteCount bandsByteCount subcodecByteCount : Nat)
    (body : List UInt8) : Option (ClearContext × ClearPayload) :=
  (if residualByteCount > 0 then clearDecompressResidualData call residualByteCount body
    else some body).bind
    fun afterResidual =>
  (if bandsByteCount > 0 then clearBands call bandsByteCount caches.bars afterResidual
    else some (caches.bars, afterResidual)).bind fun (bars, afterBands) =>
  (if subcodecByteCount > 0 then clearDecompressSubcodecsData call subcodecByteCount afterBands
    else some ([], afterBands)).map fun (bitmaps, afterSubcodecs) =>
      (bars, ⟨residualByteCount, bandsByteCount, subcodecByteCount, caches, body,
        afterResidual, afterBands,
        afterSubcodecs, bitmaps⟩)

def clearDecompressData (caches : ClearCaches) (glyphFlags : UInt8) (bytes : List UInt8) :
    Option (ClearCaches × Option ClearPayload) :=
  let bars :=
    if glyphFlags &&& CLEARCODEC_FLAG_CACHE_RESET ≠ 0 then clearResetVbarStorage caches.bars else caches.bars
  (clearDecompressGlyphData call glyphFlags caches.glyphCache bytes).bind
    fun (glyphData, glyphCache, bytes) =>
    if bytes.length < 12 then
      let mask := CLEARCODEC_FLAG_GLYPH_HIT ||| CLEARCODEC_FLAG_GLYPH_INDEX
      if glyphFlags &&& mask = mask then some (⟨bars, glyphCache⟩, none) else none
    else
      (clearSections call ⟨bars, glyphCache⟩ (leValue (bytes.take 4)) (leValue ((bytes.drop 4).take 4))
        (leValue ((bytes.drop 8).take 4)) (bytes.drop 12)).bind fun (bars, payload) =>
          match glyphData with
          | none => some (⟨bars, glyphCache⟩, some payload)
          | some index =>
            if call.imageCopy call.dst.nXDst call.dst.nYDst call.dst.nWidth call.dst.nHeight
              (.glyph index) then
              some (⟨bars, glyphCache⟩, some payload)
            else none

def clearHeader : Option (UInt8 × UInt8 × List UInt8) :=
  if !call.hasDst then none
  else if call.dst.nDstWidth = 0 ∨ call.dst.nDstHeight = 0 then none
  else if call.dst.nWidth.toNat > 0xFFFF ∨ call.dst.nHeight.toNat > 0xFFFF then none
  else
    match call.pSrcData with
    | glyphFlags :: seqNumber :: bytes =>
        if call.formatSet then some (glyphFlags, seqNumber, bytes) else none
    | _ => none

def clearExpected (expected : Nat) (seqNumber : UInt8) : Nat :=
  if expected = 0 ∧ seqNumber ≠ 0 then seqNumber.toNat else expected

/-- The expected sequence number after the call, which moves on whatever becomes of the message, and
what is decoded. -/
def clearDecompress (expected : Nat) (caches : ClearCaches) :
    Nat × Option (ClearCaches × Option ClearPayload) :=
  match clearHeader call with
  | none => (expected, none)
  | some (glyphFlags, seqNumber, bytes) =>
    if seqNumber.toNat ≠ clearExpected expected seqNumber then (clearExpected expected seqNumber, none)
    else ((seqNumber.toNat + 1) % 256, clearDecompressData call caches glyphFlags bytes)

def clearContextReset : Nat := 0

end

end KvmServer.Codec
