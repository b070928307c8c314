import KvmServer.Winpr.Stream

/-! # ClearCodec bands (`codec/clear.c`)

A band is a run of vertical bars, each decoded through two caches and then drawn.  Allocations succeed,
and what the caches hold after a failure is not modelled: the results are for every content of them. -/

namespace KvmServer.Codec
open Lib Winpr

def CLEARCODEC_VBAR_SIZE : Nat := 32768

def CLEARCODEC_VBAR_SHORT_SIZE : Nat := 16384

structure ClearFormats where
  /-- `FreeRDPGetColor` of `clear->format`. -/
  getColor : (r g b : UInt8) → UInt32
  /-- `FreeRDPConvertColor` to the destination's format. -/
  convertColor : UInt32 → UInt32
  /-- `FreeRDPWriteColor` supports `clear->format`. -/
  writable : Bool
  /-- `FreeRDPWriteColor` supports the destination's format. -/
  dstWritable : Bool

/-- `CLEAR_VBAR_ENTRY`, its pixels as colors. -/
structure ClearVBarEntry where
  (size count : Nat)
  pixels : List UInt32

structure ClearContext where
  vBarStorageCursor : Nat
  vBarStorage : Nat → ClearVBarEntry
  shortVBarStorageCursor : Nat
  shortVBarStorage : Nat → ClearVBarEntry

structure ClearBand where
  (xStart xEnd yStart yEnd : Nat)
  colorBkg : UInt32

def resizeVBarEntry (vBarEntry : ClearVBarEntry) : ClearVBarEntry :=
  if vBarEntry.count > vBarEntry.size then
    { vBarEntry with
      size := vBarEntry.count
      pixels := vBarEntry.pixels ++ .replicate (vBarEntry.count - vBarEntry.size) 0 }
  else vBarEntry

section
variable (fmt : ClearFormats)

/-! ## Decoding a bar -/

def readColors : List UInt8 → List UInt32
  | b :: g :: r :: rest => fmt.getColor r g b :: readColors rest
  | _ => []

def readBand (bytes : List UInt8) : Option (ClearBand × List UInt8) := do
  let (xStart, bytes) ← streamReadLE 2 bytes
  let (xEnd, bytes) ← streamReadLE 2 bytes
  let (yStart, bytes) ← streamReadLE 2 bytes
  let (yEnd, bytes) ← streamReadLE 2 bytes
  match bytes with
  | cb :: cg :: cr :: bytes =>
    if xEnd < xStart then none
    else if yEnd < yStart then none
    else some (⟨xStart, xEnd, yStart, yEnd, fmt.getColor cr cg cb⟩, bytes)
  | _ => none

structure ShortVBar where
  (yOn count : Nat)
  entry : ClearVBarEntry
  clear : ClearContext
  rest : List UInt8

variable (clear : ClearContext)

def shortVBarCacheHit (vBarHeader : Nat) (bytes : List UInt8) : Option ShortVBar := do
  let (vBarYOn, bytes) ← streamReadLE 1 bytes
  let vBarShortEntry := clear.shortVBarStorage (vBarHeader &&& 0x3FFF)
  return ⟨vBarYOn, vBarShortEntry.count, vBarShortEntry, clear, bytes⟩

def shortVBarCacheMiss (vBarHeader : Nat) (bytes : List UInt8) : Option ShortVBar :=
  let vBarYOn := vBarHeader &&& 0xFF
  let vBarYOff := (vBarHeader >>> 8) &&& 0x3F
  let vBarShortPixelCount := vBarYOff - vBarYOn
  if vBarYOff < vBarYOn then none
  else if vBarShortPixelCount > 52 then none
  else if bytes.length < vBarShortPixelCount * 3 then none
  else if clear.shortVBarStorageCursor ≥ CLEARCODEC_VBAR_SHORT_SIZE then none
  else
    let entry := resizeVBarEntry
      { clear.shortVBarStorage clear.shortVBarStorageCursor with count := vBarShortPixelCount }
    if vBarShortPixelCount > 0 ∧ !fmt.writable then none
    else
      let entry :=
        { entry with
          pixels := readColors fmt (bytes.take (vBarShortPixelCount * 3)) ++
            entry.pixels.drop vBarShortPixelCount }
      some ⟨vBarYOn, vBarShortPixelCount, entry,
        { clear with
          shortVBarStorage := fun k =>
            if k = clear.shortVBarStorageCursor then entry else clear.shortVBarStorage k
          shortVBarStorageCursor := (clear.shortVBarStorageCursor + 1) % CLEARCODEC_VBAR_SHORT_SIZE },
        bytes.drop (vBarShortPixelCount * 3)⟩

def updateVBar (colorBkg : UInt32) (vBarHeight : Nat) (short : ShortVBar) :
    Option (ClearContext × Nat) :=
  let clear := short.clear
  let cursor := clear.vBarStorageCursor
  if cursor ≥ CLEARCODEC_VBAR_SIZE then none
  else
    let entry := resizeVBarEntry { clear.vBarStorage cursor with count := vBarHeight }
    let above := if short.yOn > vBarHeight then vBarHeight else short.yOn
    let count := if short.yOn + short.count > vBarHeight then
      (if vBarHeight > short.yOn then vBarHeight - short.yOn else 0) else short.count
    let below :=
      if vBarHeight > short.yOn + short.count then vBarHeight - (short.yOn + short.count) else 0
    if count > 0 ∧ count > short.entry.count then none
    else if count + below > 0 ∧ !fmt.writable then none
    else
      let entry :=
        { entry with
          pixels := .replicate above colorBkg ++ short.entry.pixels.take count ++
            .replicate below colorBkg ++ entry.pixels.drop (above + count + below) }
      some ({ clear with
          vBarStorage := fun k => if k = cursor then entry else clear.vBarStorage k
          vBarStorageCursor := (cursor + 1) % CLEARCODEC_VBAR_SIZE }, cursor)

/-- An index that was reset gets dummy data. -/
def vBarCacheHit (vBarHeader vBarHeight : Nat) : ClearContext × Nat :=
  let vBarIndex := vBarHeader &&& 0x7FFF
  if (clear.vBarStorage vBarIndex).size = 0 then
    let entry := resizeVBarEntry { clear.vBarStorage vBarIndex with count := vBarHeight }
    ({ clear with vBarStorage := fun k => if k = vBarIndex then entry else clear.vBarStorage k },
      vBarIndex)
  else (clear, vBarIndex)

structure VBar where
  i : Nat
  (xStart yStart count : Nat)
  pixels : List UInt32

def selectVBar (band : ClearBand) (vBarHeader vBarHeight : Nat) (bytes : List UInt8) :
    Option (ClearContext × Nat × List UInt8) :=
  if vBarHeader &&& 0xC000 = 0x4000 then
    (shortVBarCacheHit clear vBarHeader bytes).bind fun short =>
      (updateVBar fmt band.colorBkg vBarHeight short).map fun (clear, index) =>
        (clear, index, short.rest)
  else if vBarHeader &&& 0xC000 = 0x0000 then
    (shortVBarCacheMiss fmt clear vBarHeader bytes).bind fun short =>
      (updateVBar fmt band.colorBkg vBarHeight short).map fun (clear, index) =>
        (clear, index, short.rest)
  else if vBarHeader &&& 0x8000 = 0x8000 then
    let (clear, index) := vBarCacheHit clear vBarHeader vBarHeight
    some (clear, index, bytes)
  else none

/-- The context, the bar and the bytes that are left; `suboffset` grows by the bytes that were read. -/
def decodeVBar (band : ClearBand) (i : Nat) (bytes : List UInt8) :
    Option (ClearContext × VBar × List UInt8) := do
  let (vBarHeader, bytes) ← streamReadLE 2 bytes
  let vBarHeight := band.yEnd - band.yStart + 1
  if vBarHeight > 52 then none
  else
    let (clear, index, bytes) ← selectVBar fmt clear band vBarHeader vBarHeight bytes
    let entry := clear.vBarStorage index
    let entry :=
      if entry.count ≠ vBarHeight then resizeVBarEntry { entry with count := vBarHeight } else entry
    let clear := { clear with vBarStorage := fun k => if k = index then entry else clear.vBarStorage k }
    return (clear, ⟨i, band.xStart, band.yStart, entry.count, entry.pixels⟩, bytes)

structure ClearDestination where
  (nWidth nHeight nXDst nYDst nDstWidth nDstHeight : UInt32)

structure Pixel where
  (x y color : UInt32)
deriving DecidableEq

def drawRows (dst : ClearDestination) (x nYDstRel : UInt32) (y : UInt32) :
    List UInt32 → List Pixel × Bool
  | [] => ([], true)
  | color :: colors =>
    if nYDstRel + y > dst.nDstHeight then ([], false)
    else if !fmt.dstWritable then ([], false)
    else
      let rows := drawRows dst x nYDstRel (y + 1) colors
      (⟨x, nYDstRel + y, fmt.convertColor color⟩ :: rows.1, rows.2)

def drawVBar (dst : ClearDestination) (bar : VBar) : List Pixel × Bool :=
  let nXDstRel := dst.nXDst + .ofNat bar.xStart
  let nYDstRel := dst.nYDst + .ofNat bar.yStart
  if bar.i < dst.nWidth.toNat then
    let count := if bar.count > dst.nHeight.toNat then dst.nHeight.toNat else bar.count
    if nXDstRel + .ofNat bar.i > dst.nDstWidth then ([], false)
    else drawRows fmt dst (nXDstRel + .ofNat bar.i) nYDstRel 0
      ((List.range count).map fun y => bar.pixels.getD y 0)
  else ([], true)

/-! ## The loops -/

variable {α : Type} (visit : VBar → List α × Bool)

/-- The bars of a band from the bar `i` on; `visit` is what is done with each of them, and whether
to go on. -/
def walkBand (band : ClearBand) :
    Nat → Nat → ClearContext → List UInt8 → List α × Option (ClearContext × List UInt8)
  | 0, _, clear, bytes => ([], some (clear, bytes))
  | n + 1, i, clear, bytes =>
    match decodeVBar fmt clear band i bytes with
    | none => ([], none)
    | some (clear, bar, bytes) =>
      let visited := visit bar
      if !visited.2 then (visited.1, none)
      else
        let others := walkBand band n (i + 1) clear bytes
        (visited.1 ++ others.1, others.2)

variable {clear : ClearContext} {vBarHdr : Nat} {bytes rest : List UInt8} {band : ClearBand}
variable {short : ShortVBar} {clear' : ClearContext}

theorem shortVBarCacheHit_rest (hit : shortVBarCacheHit clear vBarHdr bytes = some short) :
    short.rest.length ≤ bytes.length := by
  unfold shortVBarCacheHit at hit
  simp only [Option.bind_eq_bind, Option.bind_eq_some_iff, Prod.exists, Option.pure_def,
    Option.some_inj] at hit
  obtain ⟨_, rest, read, rfl⟩ := hit
  exact streamReadLE_rest read ▸ Nat.le_add_right _ _

theorem shortVBarCacheMiss_rest
    (missing : shortVBarCacheMiss fmt clear vBarHdr bytes = some short) :
    short.rest.length ≤ bytes.length := by
  unfold shortVBarCacheMiss at missing
  dsimp only at missing
  iterate 5
    split at missing
    · cases missing
  cases missing
  exact List.length_drop ▸ Nat.sub_le _ _

theorem selectVBar_rest {vBarHeight idx : Nat}
    (selected : selectVBar fmt clear band vBarHdr vBarHeight bytes = some (clear', idx, rest)) :
    rest.length ≤ bytes.length := by
  unfold selectVBar at selected
  split at selected
  · obtain ⟨short, hit, updated⟩ := Option.bind_eq_some_iff.mp selected
    obtain ⟨_, -, same⟩ := Option.map_eq_some_iff.mp updated
    cases same
    exact shortVBarCacheHit_rest hit
  split at selected
  · obtain ⟨short, missing, updated⟩ := Option.bind_eq_some_iff.mp selected
    obtain ⟨_, -, same⟩ := Option.map_eq_some_iff.mp updated
    cases same
    exact shortVBarCacheMiss_rest fmt missing
  split at selected
  · cases selected
    exact le_rfl
  · cases selected

theorem decodeVBar_rest {i : Nat} {bar : VBar}
    (dec : decodeVBar fmt clear band i bytes = some (clear', bar, rest)) :
    rest.length ≤ bytes.length := by
  unfold decodeVBar at dec
  simp only [Option.bind_eq_bind, Option.bind_eq_some_iff, Prod.exists] at dec
  obtain ⟨_, _, read, dec⟩ := dec
  split at dec
  · cases dec
  simp only [Option.bind_eq_some_iff, Prod.exists] at dec
  obtain ⟨_, _, _, selected, same⟩ := dec
  cases same
  exact le_trans (selectVBar_rest fmt selected) (streamReadLE_rest read ▸ Nat.le_add_right _ _)

theorem walkBand_rest {n i : Nat} {res : ClearContext × List UInt8}
    (walked : (walkBand fmt visit band n i clear bytes).2 = some res) : res.2.length ≤ bytes.length := by
  induction n generalizing i clear bytes with
  | zero =>
    cases walked
    exact le_rfl
  | succ n ih =>
    rw [walkBand] at walked
    split at walked
    · cases walked
    next _ _ _ dec =>
      dsimp only at walked
      split at walked
      · cases walked
      · exact le_trans (ih walked) (decodeVBar_rest fmt dec)

theorem readBand_rest (read : readBand fmt bytes = some (band, rest)) : rest.length < bytes.length := by
  unfold readBand at read
  simp only [Option.bind_eq_bind, Option.bind_eq_some_iff, Prod.exists] at read
  obtain ⟨_, _, read₁, _, _, read₂, _, _, read₃, _, _, read₄, last⟩ := read
  have len₁ := streamReadLE_rest read₁
  have len₂ := streamReadLE_rest read₂
  have len₃ := streamReadLE_rest read₃
  have len₄ := streamReadLE_rest read₄
  split at last
  next _ _ _ _ =>
    simp only [List.length_cons] at len₄
    split at last
    · cases last
    split at last
    · cases last
    · cases last
      omega
  next => cases last

def walkBands (bandsByteCount : Nat) (clear : ClearContext) (bytes : List UInt8) (suboffset : Nat) :
    List α × Bool :=
  if suboffset < bandsByteCount then
    match _read : readBand fmt bytes with
    | none => ([], false)
    | some (band, rest) =>
      match walked : (walkBand fmt visit band (band.xEnd - band.xStart + 1) 0 clear rest).2 with
      | none => ((walkBand fmt visit band (band.xEnd - band.xStart + 1) 0 clear rest).1, false)
      | some (clear', rest') =>
        let others :=
          walkBands bandsByteCount clear' rest' ((suboffset + (bytes.length - rest'.length)) % 2 ^ 32)
        ((walkBand fmt visit band (band.xEnd - band.xStart + 1) 0 clear rest).1 ++ others.1, others.2)
  else ([], true)
termination_by bytes.length
decreasing_by
  exact Nat.lt_of_le_of_lt (walkBand_rest fmt visit walked) (readBand_rest fmt _read)

def clearDecompressBandsData (dst : ClearDestination) (clear : ClearContext) (bandsByteCount : UInt32)
    (bytes : List UInt8) : List Pixel × Bool :=
  if bandsByteCount.toNat ≤ bytes.length then
    walkBands fmt (drawVBar fmt dst) bandsByteCount.toNat clear bytes 0
  else ([], false)

end

end KvmServer.Codec
