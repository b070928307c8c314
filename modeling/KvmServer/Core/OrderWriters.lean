import KvmServer.Core.Orders

/-! # Writing primary drawing orders (`core/orders.c`)

A writer sends every field of an order and sets the flags of all of them; coordinates are absolute.
The stream always has room for what is written. -/

namespace KvmServer.Core
open Lib Winpr

structure OrderWritten (α : Type) where
  fieldFlags : Nat
  order : α
  bytes : List UInt8
deriving DecidableEq

def firstFields (n : Nat) : Nat := 2 ^ n - 1

/-! ## Fields -/

/-- `get_checked_uint8` and `get_checked_uint16` for `n` of 1 and 2, and the write of `n` bytes. -/
def orderWriteUint (n value : Nat) : Except Stop (List UInt8) := do
  let checked ← assertingCast (8 * n) value
  return leBytes n checked

def orderWriteInt16 (value : Int) : Except Stop (List UInt8) :=
  if checkValFitsInt16 value then .ok (leBytes 2 (value % 2 ^ 16).toNat) else .error .assertion

def updateWriteCoord (coord : Int) : Except Stop (List UInt8) :=
  if coord < 0 ∨ coord > 0xFFFF then .error .refused else .ok (leBytes 2 coord.toNat)

def updateWriteColor (color : Nat) : List UInt8 := leBytes 3 color

def writeOrderField (fieldFlags number : Nat) (write : Except Stop (List UInt8)) :
    Except Stop (List UInt8) :=
  if orderFieldFlagIsSet fieldFlags number then write else .ok []

structure BrushWritten where
  brush : RdpBrush
  bytes : List UInt8
  ok : Bool

def BrushWritten.check (written : BrushWritten) : Except Stop Unit :=
  if written.ok then .ok () else .error .refused

def writeBrushData (fieldFlags : Nat) (brush : RdpBrush) (front : List UInt8) :
    Except Stop BrushWritten := do
  let hatch ← writeOrderField fieldFlags 4 (orderWriteUint 1 brush.hatch)
  if orderFieldFlagIsSet fieldFlags 5 then do
    let data :=
      [brush.p8x8[7], brush.p8x8[6], brush.p8x8[5], brush.p8x8[4], brush.p8x8[3], brush.p8x8[2],
      brush.p8x8[1]]
    let checked ← assertingCast 8 brush.hatch
    return ⟨{ brush with p8x8 := brush.p8x8.set 0 (UInt8.ofNat checked) },
      front ++ (hatch ++ data), true⟩
  else return ⟨brush, front ++ hatch, true⟩

/-- The hatch of a cached brush is its index. -/
def updateWriteBrush (brush : RdpBrush) (fieldFlags : Nat) : Except Stop BrushWritten := do
  let x ← writeOrderField fieldFlags 1 (orderWriteUint 1 brush.x)
  let y ← writeOrderField fieldFlags 2 (orderWriteUint 1 brush.y)
  let style ← writeOrderField fieldFlags 3 (orderWriteUint 1 brush.style)
  if brush.style &&& CACHED_BRUSH ≠ 0 then
    match getBmfBpp brush.style with
    | none => return ⟨{ brush with hatch := brush.index, bpp := 0 }, x ++ (y ++ style), false⟩
    | some bpp =>
      writeBrushData fieldFlags { brush with hatch := brush.index, bpp := if bpp = 0 then 1 else bpp }
        (x ++ (y ++ style))
  else writeBrushData fieldFlags brush (x ++ (y ++ style))

/-! ## Orders -/

def updateWriteDstbltOrder (dstblt : DstbltOrder) : Except Stop (OrderWritten DstbltOrder) := do
  let nLeftRect ← updateWriteCoord dstblt.nLeftRect
  let nTopRect ← updateWriteCoord dstblt.nTopRect
  let nWidth ← updateWriteCoord dstblt.nWidth
  let nHeight ← updateWriteCoord dstblt.nHeight
  let bRop ← orderWriteUint 1 dstblt.bRop
  return ⟨firstFields 5, dstblt, nLeftRect ++ (nTopRect ++ (nWidth ++ (nHeight ++ bRop)))⟩

/-- Whether the brush was written is not looked at. -/
def updateWritePatbltOrder (patblt : PatbltOrder) : Except Stop (OrderWritten PatbltOrder) := do
  let nLeftRect ← updateWriteCoord patblt.nLeftRect
  let nTopRect ← updateWriteCoord patblt.nTopRect
  let nWidth ← updateWriteCoord patblt.nWidth
  let nHeight ← updateWriteCoord patblt.nHeight
  let bRop ← orderWriteUint 1 patblt.bRop
  let brush ← updateWriteBrush patblt.brush (firstFields 12 >>> 7 &&& 0x1F)
  return ⟨firstFields 12, { patblt with brush := brush.brush },
    nLeftRect ++ (nTopRect ++ (nWidth ++ (nHeight ++ (bRop ++ (updateWriteColor patblt.backColor ++
      (updateWriteColor patblt.foreColor ++ brush.bytes))))))⟩

def updateWriteScrbltOrder (scrblt : ScrbltOrder) : Except Stop (OrderWritten ScrbltOrder) := do
  let nLeftRect ← updateWriteCoord scrblt.nLeftRect
  let nTopRect ← updateWriteCoord scrblt.nTopRect
  let nWidth ← updateWriteCoord scrblt.nWidth
  let nHeight ← updateWriteCoord scrblt.nHeight
  let bRop ← orderWriteUint 1 scrblt.bRop
  let nXSrc ← updateWriteCoord scrblt.nXSrc
  let nYSrc ← updateWriteCoord scrblt.nYSrc
  return ⟨firstFields 7, scrblt,
    nLeftRect ++ (nTopRect ++ (nWidth ++ (nHeight ++ (bRop ++ (nXSrc ++ nYSrc)))))⟩

def updateWriteOpaqueRectOrder (opaqueRect : OpaqueRectOrder) :
    Except Stop (OrderWritten OpaqueRectOrder) := do
  let nLeftRect ← updateWriteCoord opaqueRect.nLeftRect
  let nTopRect ← updateWriteCoord opaqueRect.nTopRect
  let nWidth ← updateWriteCoord opaqueRect.nWidth
  let nHeight ← updateWriteCoord opaqueRect.nHeight
  let color :=
    [UInt8.ofNat (opaqueRect.color &&& 0x000000FF), UInt8.ofNat ((opaqueRect.color &&& 0x0000FF00) >>> 8),
    UInt8.ofNat ((opaqueRect.color &&& 0x00FF0000) >>> 16)]
  return ⟨firstFields 7, opaqueRect, nLeftRect ++ (nTopRect ++ (nWidth ++ (nHeight ++ color)))⟩

def updateWriteLineToOrder (lineTo : LineToOrder) : Except Stop (OrderWritten LineToOrder) := do
  let backMode ← orderWriteUint 2 lineTo.backMode
  let nXStart ← updateWriteCoord lineTo.nXStart
  let nYStart ← updateWriteCoord lineTo.nYStart
  let nXEnd ← updateWriteCoord lineTo.nXEnd
  let nYEnd ← updateWriteCoord lineTo.nYEnd
  let bRop2 ← orderWriteUint 1 lineTo.bRop2
  let penStyle ← orderWriteUint 1 lineTo.penStyle
  let penWidth ← orderWriteUint 1 lineTo.penWidth
  return ⟨firstFields 10, lineTo,
    backMode ++ (nXStart ++
      (nYStart ++ (nXEnd ++ (nYEnd ++ (updateWriteColor lineTo.backColor ++ (bRop2 ++ (penStyle ++
      (penWidth ++ updateWriteColor lineTo.penColor))))))))⟩

/-- The flags that were there before stay. -/
def updateWriteMembltOrder (fieldFlags : Nat) (memblt : MembltOrder) :
    Except Stop (OrderWritten MembltOrder) := do
  let cacheId := leBytes 2 (memblt.cacheId &&& 0xFF ||| (memblt.colorIndex &&& 0xFF) <<< 8)
  let nLeftRect ← updateWriteCoord memblt.nLeftRect
  let nTopRect ← updateWriteCoord memblt.nTopRect
  let nWidth ← updateWriteCoord memblt.nWidth
  let nHeight ← updateWriteCoord memblt.nHeight
  let bRop ← orderWriteUint 1 memblt.bRop
  let nXSrc ← updateWriteCoord memblt.nXSrc
  let nYSrc ← updateWriteCoord memblt.nYSrc
  let cacheIndex ← orderWriteUint 2 memblt.cacheIndex
  return ⟨fieldFlags ||| firstFields 9, memblt,
    cacheId ++
      (nLeftRect ++ (nTopRect ++ (nWidth ++ (nHeight ++ (bRop ++ (nXSrc ++ (nYSrc ++ cacheIndex)))))))⟩

/-- The background colour has to fit into a byte. -/
def updateWriteGlyphIndexOrder (glyphIndex : GlyphIndexOrder) :
    Except Stop (OrderWritten GlyphIndexOrder) := do
  let cacheId ← orderWriteUint 1 glyphIndex.cacheId
  let flAccel ← orderWriteUint 1 glyphIndex.flAccel
  let ulCharInc ← orderWriteUint 1 glyphIndex.ulCharInc
  let fOpRedundant ← orderWriteUint 1 glyphIndex.fOpRedundant
  let backColor ← assertingCast 8 glyphIndex.backColor
  let bkLeft ← orderWriteInt16 glyphIndex.bkLeft
  let bkTop ← orderWriteInt16 glyphIndex.bkTop
  let bkRight ← orderWriteInt16 glyphIndex.bkRight
  let bkBottom ← orderWriteInt16 glyphIndex.bkBottom
  let opLeft ← orderWriteInt16 glyphIndex.opLeft
  let opTop ← orderWriteInt16 glyphIndex.opTop
  let opRight ← orderWriteInt16 glyphIndex.opRight
  let opBottom ← orderWriteInt16 glyphIndex.opBottom
  let brush ← updateWriteBrush glyphIndex.brush (firstFields 19 >>> 14 &&& 0x1F)
  brush.check
  let x ← orderWriteInt16 glyphIndex.x
  let y ← orderWriteInt16 glyphIndex.y
  let cbData ← orderWriteUint 1 glyphIndex.cbData
  return ⟨firstFields 22, { glyphIndex with brush := brush.brush },
    cacheId ++ (flAccel ++ (ulCharInc ++ (fOpRedundant ++ (updateWriteColor backColor ++
      (updateWriteColor glyphIndex.foreColor ++
        (bkLeft ++ (bkTop ++ (bkRight ++ (bkBottom ++ (opLeft ++ (opTop ++
        (opRight ++ (opBottom ++ (brush.bytes ++ (x ++ (y ++
          (cbData ++ glyphIndex.data.take glyphIndex.cbData)))))))))))))))))⟩

theorem assertingCast_ok {bits value chkd : Nat} (cast : assertingCast bits value = .ok chkd) :
    chkd = value ∧ value < 2 ^ bits := by
  unfold assertingCast at cast
  split at cast
  next lt =>
    cases cast
    exact ⟨rfl, lt⟩
  next => cases cast

theorem writeBrushData_ok {brush : RdpBrush} {written : BrushWritten} {pre : List UInt8}
    (res : writeBrushData 0x1F brush pre = .ok written) :
    ∃ hatch, orderWriteUint 1 brush.hatch = .ok hatch ∧ brush.hatch < 2 ^ 8 ∧
      written = ⟨{ brush with p8x8 := brush.p8x8.set 0 (UInt8.ofNat brush.hatch) },
        pre ++ (hatch ++
          [brush.p8x8[7], brush.p8x8[6], brush.p8x8[5], brush.p8x8[4], brush.p8x8[3], brush.p8x8[2],
          brush.p8x8[1]]), true⟩ := by
  obtain ⟨hatch, writtenHatch, res⟩ := bind_eq_ok.mp res
  obtain ⟨_, cast, res⟩ := bind_eq_ok.mp res
  obtain ⟨rfl, lt⟩ := assertingCast_ok cast
  cases res
  exact ⟨hatch, writtenHatch, lt, rfl⟩

end KvmServer.Core
