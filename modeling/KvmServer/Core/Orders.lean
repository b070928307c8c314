import KvmServer.Lib.ByteReader
import KvmServer.Winpr.Stream

/-! # Primary drawing orders (`core/orders.c`)

A primary order carries only the fields whose flags are set; the others keep the value they have
from the last order of its type.  An order that is refused ends the session.  The callbacks do not
change the orders that they are given. -/

namespace KvmServer.Core
open Lib Winpr

/-! ## The orders

Every field starts at zero. -/

structure RdpBounds where
  left : Int := 0
  top : Int := 0
  right : Int := 0
  bottom : Int := 0

/-- `data` always points to `p8x8`. -/
structure RdpBrush where
  x : Nat := 0
  y : Nat := 0
  bpp : Nat := 0
  style : Nat := 0
  hatch : Nat := 0
  index : Nat := 0
  p8x8 : Vector UInt8 8 := .replicate 8 0
deriving DecidableEq

structure OrderInfo where
  orderType : Nat := 0
  fieldFlags : Nat := 0
  bounds : RdpBounds := {}
  deltaCoordinates : Bool := false

structure DstbltOrder where
  nLeftRect : Int := 0
  nTopRect : Int := 0
  nWidth : Int := 0
  nHeight : Int := 0
  bRop : Nat := 0
deriving DecidableEq

structure PatbltOrder where
  nLeftRect : Int := 0
  nTopRect : Int := 0
  nWidth : Int := 0
  nHeight : Int := 0
  bRop : Nat := 0
  backColor : Nat := 0
  foreColor : Nat := 0
  brush : RdpBrush := {}
deriving DecidableEq

structure ScrbltOrder where
  nLeftRect : Int := 0
  nTopRect : Int := 0
  nWidth : Int := 0
  nHeight : Int := 0
  bRop : Nat := 0
  nXSrc : Int := 0
  nYSrc : Int := 0
deriving DecidableEq

structure OpaqueRectOrder where
  nLeftRect : Int := 0
  nTopRect : Int := 0
  nWidth : Int := 0
  nHeight : Int := 0
  color : Nat := 0
deriving DecidableEq

structure DrawNineGridOrder where
  srcLeft : Int := 0
  srcTop : Int := 0
  srcRight : Int := 0
  srcBottom : Int := 0
  bitmapId : Nat := 0

structure DeltaRect where
  left : Int := 0
  top : Int := 0
  width : Int := 0
  height : Int := 0
deriving DecidableEq

/-- The rectangles of an order.  The array has 45 elements, of which the first `numRectangles` count. -/
structure OrderRects where
  numRectangles : Nat := 0
  cbData : Nat := 0
  rectangles : List DeltaRect := List.replicate 45 {}

structure MultiDstbltOrder extends OrderRects where
  nLeftRect : Int := 0
  nTopRect : Int := 0
  nWidth : Int := 0
  nHeight : Int := 0
  bRop : Nat := 0

structure MultiPatbltOrder extends OrderRects where
  nLeftRect : Int := 0
  nTopRect : Int := 0
  nWidth : Int := 0
  nHeight : Int := 0
  bRop : Nat := 0
  backColor : Nat := 0
  foreColor : Nat := 0
  brush : RdpBrush := {}

structure MultiScrbltOrder extends OrderRects where
  nLeftRect : Int := 0
  nTopRect : Int := 0
  nWidth : Int := 0
  nHeight : Int := 0
  bRop : Nat := 0
  nXSrc : Int := 0
  nYSrc : Int := 0

structure MultiOpaqueRectOrder extends OrderRects where
  nLeftRect : Int := 0
  nTopRect : Int := 0
  nWidth : Int := 0
  nHeight : Int := 0
  color : Nat := 0

/-- The source calls the number of rectangles `nDeltaEntries` here. -/
structure MultiDrawNineGridOrder extends OrderRects where
  srcLeft : Int := 0
  srcTop : Int := 0
  srcRight : Int := 0
  srcBottom : Int := 0
  bitmapId : Nat := 0

structure LineToOrder where
  backMode : Nat := 0
  nXStart : Int := 0
  nYStart : Int := 0
  nXEnd : Int := 0
  nYEnd : Int := 0
  backColor : Nat := 0
  bRop2 : Nat := 0
  penStyle : Nat := 0
  penWidth : Nat := 0
  penColor : Nat := 0
deriving DecidableEq

structure DeltaPoint where
  x : Int := 0
  y : Int := 0
deriving DecidableEq

/-- The points of an order.  The array is allocated with the data, and its first `numPoints`
elements count. -/
structure OrderPoints where
  numPoints : Nat := 0
  cbData : Nat := 0
  points : List DeltaPoint := []

/-- The source calls the number of points `numDeltaEntries` here. -/
structure PolylineOrder extends OrderPoints where
  xStart : Int := 0
  yStart : Int := 0
  bRop2 : Nat := 0
  penColor : Nat := 0

structure MembltOrder where
  cacheId : Nat := 0
  colorIndex : Nat := 0
  nLeftRect : Int := 0
  nTopRect : Int := 0
  nWidth : Int := 0
  nHeight : Int := 0
  bRop : Nat := 0
  nXSrc : Int := 0
  nYSrc : Int := 0
  cacheIndex : Nat := 0
deriving DecidableEq

structure Mem3bltOrder where
  cacheId : Nat := 0
  colorIndex : Nat := 0
  nLeftRect : Int := 0
  nTopRect : Int := 0
  nWidth : Int := 0
  nHeight : Int := 0
  bRop : Nat := 0
  nXSrc : Int := 0
  nYSrc : Int := 0
  backColor : Nat := 0
  foreColor : Nat := 0
  brush : RdpBrush := {}
  cacheIndex : Nat := 0

structure SaveBitmapOrder where
  savedBitmapPosition : Nat := 0
  nLeftRect : Int := 0
  nTopRect : Int := 0
  nRightRect : Int := 0
  nBottomRect : Int := 0
  operation : Nat := 0

structure GlyphIndexOrder where
  cacheId : Nat := 0
  flAccel : Nat := 0
  ulCharInc : Nat := 0
  fOpRedundant : Nat := 0
  backColor : Nat := 0
  foreColor : Nat := 0
  bkLeft : Int := 0
  bkTop : Int := 0
  bkRight : Int := 0
  bkBottom : Int := 0
  opLeft : Int := 0
  opTop : Int := 0
  opRight : Int := 0
  opBottom : Int := 0
  brush : RdpBrush := {}
  x : Int := 0
  y : Int := 0
  cbData : Nat := 0
  data : List UInt8 := List.replicate 256 0
deriving DecidableEq

/-- `opaqueRect` is set by no reader. -/
structure FastIndexOrder where
  cacheId : Nat := 0
  flAccel : Nat := 0
  ulCharInc : Nat := 0
  backColor : Nat := 0
  foreColor : Nat := 0
  bkLeft : Int := 0
  bkTop : Int := 0
  bkRight : Int := 0
  bkBottom : Int := 0
  opLeft : Int := 0
  opTop : Int := 0
  opRight : Int := 0
  opBottom : Int := 0
  x : Int := 0
  y : Int := 0
  cbData : Nat := 0
  data : List UInt8 := List.replicate 256 0

structure GlyphDataV2 where
  cacheIndex : Nat := 0
  x : Int := 0
  y : Int := 0
  cx : Nat := 0
  cy : Nat := 0
  cb : Nat := 0
  aj : List UInt8 := []
deriving DecidableEq

structure FastGlyphOrder where
  cacheId : Nat := 0
  flAccel : Nat := 0
  ulCharInc : Nat := 0
  backColor : Nat := 0
  foreColor : Nat := 0
  bkLeft : Int := 0
  bkTop : Int := 0
  bkRight : Int := 0
  bkBottom : Int := 0
  opLeft : Int := 0
  opTop : Int := 0
  opRight : Int := 0
  opBottom : Int := 0
  x : Int := 0
  y : Int := 0
  cbData : Nat := 0
  data : List UInt8 := List.replicate 256 0
  glyphData : GlyphDataV2 := {}

structure PolygonScOrder extends OrderPoints where
  xStart : Int := 0
  yStart : Int := 0
  bRop2 : Nat := 0
  fillMode : Nat := 0
  brushColor : Nat := 0

structure PolygonCbOrder extends OrderPoints where
  xStart : Int := 0
  yStart : Int := 0
  bRop2 : Nat := 0
  backMode : Nat := 0
  fillMode : Nat := 0
  backColor : Nat := 0
  foreColor : Nat := 0
  brush : RdpBrush := {}

structure EllipseScOrder where
  leftRect : Int := 0
  topRect : Int := 0
  rightRect : Int := 0
  bottomRect : Int := 0
  bRop2 : Nat := 0
  fillMode : Nat := 0
  color : Nat := 0

structure EllipseCbOrder where
  leftRect : Int := 0
  topRect : Int := 0
  rightRect : Int := 0
  bottomRect : Int := 0
  bRop2 : Nat := 0
  fillMode : Nat := 0
  backColor : Nat := 0
  foreColor : Nat := 0
  brush : RdpBrush := {}

/-! ## Reading integers -/

abbrev OrderReader := ByteReader Stop

/-- `Stream_CheckAndLogRequiredLength` and the little-endian read of `n` bytes. -/
def orderReadUint (n : Nat) : OrderReader Nat := readLE .refused n

def orderRequire (condition : Prop) [Decidable condition] : OrderReader Unit :=
  if condition then pure () else throw .refused

theorem orderRequire_ensures (condition : Prop) [Decidable condition] :
    Ensures (orderRequire condition) fun _ => condition :=
  .ite (fun h => .pure h) fun _ => .throw _ _

def orderAssert (condition : Prop) [Decidable condition] : OrderReader Unit :=
  if condition then pure () else throw .assertion

def signedValue (bits : Nat) (value : Nat) : Int := Int.bmod value (2 ^ bits)

def updateReadCoord (coord : Int) (delta : Bool) : OrderReader Int :=
  if delta then do
    let lsi8 ← orderReadUint 1
    return Int.bmod (coord + signedValue 8 lsi8) (2 ^ 32)
  else do
    let lsi16 ← orderReadUint 2
    return signedValue 16 lsi16

def updateReadColor : OrderReader Nat := orderReadUint 3

def updateRead2byteUnsigned : OrderReader Nat := do
  let byte ← orderReadUint 1
  if byte &&& 0x80 ≠ 0 then do
    let low ← orderReadUint 1
    return (byte &&& 0x7F) <<< 8 ||| low
  else return byte &&& 0x7F

def updateRead2byteSigned : OrderReader Int := do
  let byte ← orderReadUint 1
  let value ← if byte &&& 0x80 ≠ 0 then do
      let low ← orderReadUint 1
      pure ((byte &&& 0x3F) <<< 8 ||| low)
    else pure (byte &&& 0x3F)
  return if byte &&& 0x40 ≠ 0 then -(value : Int) else (value : Int)

/-- `~0x3F` fills the upper bits of a negative delta. -/
def updateReadDelta : OrderReader Int := do
  let byte ← orderReadUint 1
  let uvalue := if byte &&& 0x40 ≠ 0 then byte ||| 0xFFFFFFC0 else byte &&& 0x3F
  if byte &&& 0x80 ≠ 0 then do
    let low ← orderReadUint 1
    return signedValue 32 (uvalue <<< 8 % 2 ^ 32 ||| low)
  else return signedValue 32 uvalue

/-! ## Fields -/

/-- `order_field_flag_is_set`, which is also what the masks `ORDER_FIELD_01` to `ORDER_FIELD_22` test. -/
def orderFieldFlagIsSet (fieldFlags number : Nat) : Bool := fieldFlags &&& (1 <<< (number - 1)) ≠ 0

def readOrderField {α : Type} (fieldFlags number : Nat) (target : α) (read : OrderReader α) :
    OrderReader α :=
  if orderFieldFlagIsSet fieldFlags number then read else pure target

theorem readOrderField_ensures {α : Type} {fieldFlg num : Nat} {target : α} {read : OrderReader α}
    {Post : α → Prop} (new : Ensures read Post) (old : Post target) :
    Ensures (readOrderField fieldFlg num target read) Post :=
  .ite (fun _ => new) fun _ => .pure old

variable (info : OrderInfo)

def readOrderFieldByte (number target : Nat) : OrderReader Nat :=
  readOrderField info.fieldFlags number target (orderReadUint 1)

def readOrderField2bytes (number : Nat) (targets : Nat × Nat) : OrderReader (Nat × Nat) :=
  readOrderField info.fieldFlags number targets do
    let target1 ← orderReadUint 1
    let target2 ← orderReadUint 1
    return (target1, target2)

def readOrderFieldUint16 (number target : Nat) : OrderReader Nat :=
  readOrderField info.fieldFlags number target (orderReadUint 2)

def readOrderFieldInt16 (number : Nat) (target : Int) : OrderReader Int :=
  readOrderField info.fieldFlags number target do
    let value ← orderReadUint 2
    return signedValue 16 value

def readOrderFieldUint32 (number target : Nat) : OrderReader Nat :=
  readOrderField info.fieldFlags number target (orderReadUint 4)

def readOrderFieldCoord (number : Nat) (target : Int) : OrderReader Int :=
  readOrderField info.fieldFlags number target (updateReadCoord target info.deltaCoordinates)

def readOrderFieldColor (number target : Nat) : OrderReader Nat :=
  readOrderField info.fieldFlags number target updateReadColor

/-! ## Brushes -/

def CACHED_BRUSH : Nat := 0x80

def getBmfBpp (bmf : Nat) : Option Nat :=
  match bmf &&& (2 ^ 32 - 1 - CACHED_BRUSH) with
  | 1 => some 1
  | 3 => some 8
  | 4 => some 16
  | 5 => some 24
  | 6 => some 32
  | _ => none

def readCachedBrush (brush : RdpBrush) (style hatch : Nat) : OrderReader (Nat × Nat) :=
  if style &&& CACHED_BRUSH ≠ 0 then
    match getBmfBpp style with
    | none => throw .refused
    | some bpp => return (hatch, if bpp = 0 then 1 else bpp)
  else return (brush.index, brush.bpp)

/-- The last row comes first, and the first one is the hatch. -/
def readBrushData (hatch : Nat) : OrderReader (Vector UInt8 8) := do
  let data7 ← orderReadUint 1
  let data6 ← orderReadUint 1
  let data5 ← orderReadUint 1
  let data4 ← orderReadUint 1
  let data3 ← orderReadUint 1
  let data2 ← orderReadUint 1
  let data1 ← orderReadUint 1
  orderAssert (hatch ≤ 0xFF)
  return #v[hatch, data1, data2, data3, data4, data5, data6, data7].map UInt8.ofNat

def updateReadBrush (brush : RdpBrush) (fieldFlags : Nat) : OrderReader RdpBrush := do
  let x ← readOrderField fieldFlags 1 brush.x (orderReadUint 1)
  let y ← readOrderField fieldFlags 2 brush.y (orderReadUint 1)
  let style ← readOrderField fieldFlags 3 brush.style (orderReadUint 1)
  let hatch ← readOrderField fieldFlags 4 brush.hatch (orderReadUint 1)
  let (index, bpp) ← readCachedBrush brush style hatch
  let p8x8 ← readOrderField fieldFlags 5 brush.p8x8 (readBrushData hatch)
  return { x, y, style, hatch, index, bpp, p8x8 }

def brushFieldFlags (shift : Nat) : Nat := info.fieldFlags >>> shift &&& 0x1F

/-! ## Rectangles and points -/

def copyMemory {α : Type} (memory front : List α) : List α := front ++ memory.drop front.length

def updateReadDeltaUnless (zero : Bool) (absent : Int) : OrderReader Int :=
  if zero then pure absent else updateReadDelta

def updateReadDeltaRect (flags : UInt8) (previous : DeltaRect) : OrderReader DeltaRect := do
  let left ← updateReadDeltaUnless (flags &&& 0x80 ≠ 0) 0
  let top ← updateReadDeltaUnless (flags &&& 0x40 ≠ 0) 0
  let width ← updateReadDeltaUnless (flags &&& 0x20 ≠ 0) previous.width
  let height ← updateReadDeltaUnless (flags &&& 0x10 ≠ 0) previous.height
  return { left := left + previous.left, top := top + previous.top, width, height }

/-- `count` rectangles from the `i`th one on.  There is a zero rectangle before the first one. -/
def updateReadDeltaRectsFrom (zeroBits : List UInt8) :
    Nat → DeltaRect → Nat → OrderReader (List DeltaRect)
  | _, _, 0 => return []
  | i, previous, count + 1 => do
    let rect ← updateReadDeltaRect (zeroBits.getD (i / 2) 0 <<< UInt8.ofNat (4 * (i % 2))) previous
    let rects ← updateReadDeltaRectsFrom zeroBits (i + 1) rect count
    return rect :: rects

def updateReadDeltaRects (rectangles : List DeltaRect) (number : Nat) :
    OrderReader (List DeltaRect) := do
  orderRequire (number ≤ 45)
  let zeroBits ← readBytes .refused ((number + 1) / 2)
  let rects ← updateReadDeltaRectsFrom zeroBits 0 {} number
  return copyMemory rectangles rects

def updateReadDeltaPoint (flags : UInt8) : OrderReader DeltaPoint := do
  let x ← updateReadDeltaUnless (flags &&& 0x80 ≠ 0) 0
  let y ← updateReadDeltaUnless (flags &&& 0x40 ≠ 0) 0
  return { x, y }

def updateReadDeltaPointsFrom (zeroBits : List UInt8) : Nat → Nat → OrderReader (List DeltaPoint)
  | _, 0 => return []
  | i, count + 1 => do
    let point ← updateReadDeltaPoint (zeroBits.getD (i / 4) 0 <<< UInt8.ofNat (2 * (i % 4)))
    let points ← updateReadDeltaPointsFrom zeroBits (i + 1) count
    return point :: points

def updateReadDeltaPoints (number : Nat) : OrderReader (List DeltaPoint) := do
  let zeroBits ← readBytes .refused ((number + 3) / 4)
  updateReadDeltaPointsFrom zeroBits 0 number

/-- The end of the orders with rectangles.  Without the data the number may only get smaller. -/
def readOrderRects (dataField numRectangles : Nat) (order : OrderRects) : OrderReader OrderRects :=
  if orderFieldFlagIsSet info.fieldFlags dataField then do
    let cbData ← orderReadUint 2
    let rectangles ← updateReadDeltaRects order.rectangles numRectangles
    return { numRectangles, cbData, rectangles }
  else do
    orderRequire (numRectangles ≤ order.numRectangles)
    return { order with numRectangles }

def checkValFitsInt16 (value : Int) : Prop := -0x8000 ≤ value ∧ value ≤ 0x7FFF

instance (value : Int) : Decidable (checkValFitsInt16 value) := inferInstanceAs (Decidable (_ ∧ _))

def readOrderPoints (dataField numPoints : Nat) (xStart yStart : Int) (order : OrderPoints) :
    OrderReader OrderPoints :=
  if orderFieldFlagIsSet info.fieldFlags dataField then do
    orderRequire (numPoints ≠ 0)
    let cbData ← orderReadUint 1
    orderRequire (checkValFitsInt16 xStart ∧ checkValFitsInt16 yStart)
    let points ← updateReadDeltaPoints numPoints
    return { numPoints, cbData, points }
  else do
    orderRequire (numPoints ≤ order.numPoints)
    return { order with numPoints }

/-! ## Readers of the orders -/

def updateReadDstbltOrder (dstblt : DstbltOrder) : OrderReader DstbltOrder := do
  let nLeftRect ← readOrderFieldCoord info 1 dstblt.nLeftRect
  let nTopRect ← readOrderFieldCoord info 2 dstblt.nTopRect
  let nWidth ← readOrderFieldCoord info 3 dstblt.nWidth
  let nHeight ← readOrderFieldCoord info 4 dstblt.nHeight
  let bRop ← readOrderFieldByte info 5 dstblt.bRop
  return { nLeftRect, nTopRect, nWidth, nHeight, bRop }

def updateReadPatbltOrder (patblt : PatbltOrder) : OrderReader PatbltOrder := do
  let nLeftRect ← readOrderFieldCoord info 1 patblt.nLeftRect
  let nTopRect ← readOrderFieldCoord info 2 patblt.nTopRect
  let nWidth ← readOrderFieldCoord info 3 patblt.nWidth
  let nHeight ← readOrderFieldCoord info 4 patblt.nHeight
  let bRop ← readOrderFieldByte info 5 patblt.bRop
  let backColor ← readOrderFieldColor info 6 patblt.backColor
  let foreColor ← readOrderFieldColor info 7 patblt.foreColor
  let brush ← updateReadBrush patblt.brush (brushFieldFlags info 7)
  return { nLeftRect, nTopRect, nWidth, nHeight, bRop, backColor, foreColor, brush }

def updateReadScrbltOrder (scrblt : ScrbltOrder) : OrderReader ScrbltOrder := do
  let nLeftRect ← readOrderFieldCoord info 1 scrblt.nLeftRect
  let nTopRect ← readOrderFieldCoord info 2 scrblt.nTopRect
  let nWidth ← readOrderFieldCoord info 3 scrblt.nWidth
  let nHeight ← readOrderFieldCoord info 4 scrblt.nHeight
  let bRop ← readOrderFieldByte info 5 scrblt.bRop
  let nXSrc ← readOrderFieldCoord info 6 scrblt.nXSrc
  let nYSrc ← readOrderFieldCoord info 7 scrblt.nYSrc
  return { nLeftRect, nTopRect, nWidth, nHeight, bRop, nXSrc, nYSrc }

def readOrderColorBytes (color : Nat) : OrderReader Nat := do
  let color ← readOrderField info.fieldFlags 5 color do
    let byte ← orderReadUint 1
    return color &&& 0x00FFFF00 ||| byte
  let color ← readOrderField info.fieldFlags 6 color do
    let byte ← orderReadUint 1
    return color &&& 0x00FF00FF ||| byte <<< 8
  readOrderField info.fieldFlags 7 color do
    let byte ← orderReadUint 1
    return color &&& 0x0000FFFF ||| byte <<< 16

def updateReadOpaqueRectOrder (opaqueRect : OpaqueRectOrder) : OrderReader OpaqueRectOrder := do
  let nLeftRect ← readOrderFieldCoord info 1 opaqueRect.nLeftRect
  let nTopRect ← readOrderFieldCoord info 2 opaqueRect.nTopRect
  let nWidth ← readOrderFieldCoord info 3 opaqueRect.nWidth
  let nHeight ← readOrderFieldCoord info 4 opaqueRect.nHeight
  let color ← readOrderColorBytes info opaqueRect.color
  return { nLeftRect, nTopRect, nWidth, nHeight, color }

def updateReadDrawNineGridOrder (drawNineGrid : DrawNineGridOrder) : OrderReader DrawNineGridOrder := do
  let srcLeft ← readOrderFieldCoord info 1 drawNineGrid.srcLeft
  let srcTop ← readOrderFieldCoord info 2 drawNineGrid.srcTop
  let srcRight ← readOrderFieldCoord info 3 drawNineGrid.srcRight
  let srcBottom ← readOrderFieldCoord info 4 drawNineGrid.srcBottom
  let bitmapId ← readOrderFieldUint16 info 5 drawNineGrid.bitmapId
  return { srcLeft, srcTop, srcRight, srcBottom, bitmapId }

def updateReadMultiDstbltOrder (multiDstblt : MultiDstbltOrder) : OrderReader MultiDstbltOrder := do
  let nLeftRect ← readOrderFieldCoord info 1 multiDstblt.nLeftRect
  let nTopRect ← readOrderFieldCoord info 2 multiDstblt.nTopRect
  let nWidth ← readOrderFieldCoord info 3 multiDstblt.nWidth
  let nHeight ← readOrderFieldCoord info 4 multiDstblt.nHeight
  let bRop ← readOrderFieldByte info 5 multiDstblt.bRop
  let numRectangles ← readOrderFieldByte info 6 multiDstblt.numRectangles
  let rects ← readOrderRects info 7 numRectangles multiDstblt.toOrderRects
  return { rects with nLeftRect, nTopRect, nWidth, nHeight, bRop }

/-- The number is compared after the data too. -/
def updateReadMultiPatbltOrder (multiPatblt : MultiPatbltOrder) : OrderReader MultiPatbltOrder := do
  let nLeftRect ← readOrderFieldCoord info 1 multiPatblt.nLeftRect
  let nTopRect ← readOrderFieldCoord info 2 multiPatblt.nTopRect
  let nWidth ← readOrderFieldCoord info 3 multiPatblt.nWidth
  let nHeight ← readOrderFieldCoord info 4 multiPatblt.nHeight
  let bRop ← readOrderFieldByte info 5 multiPatblt.bRop
  let backColor ← readOrderFieldColor info 6 multiPatblt.backColor
  let foreColor ← readOrderFieldColor info 7 multiPatblt.foreColor
  let brush ← updateReadBrush multiPatblt.brush (brushFieldFlags info 7)
  let numRectangles ← readOrderFieldByte info 13 multiPatblt.numRectangles
  let rects ← readOrderField info.fieldFlags 14 multiPatblt.toOrderRects do
    let cbData ← orderReadUint 2
    let rectangles ← updateReadDeltaRects multiPatblt.rectangles numRectangles
    return { numRectangles, cbData, rectangles }
  orderRequire (numRectangles ≤ rects.numRectangles)
  return { rects with
    numRectangles, nLeftRect, nTopRect, nWidth, nHeight, bRop, backColor, foreColor, brush }

def updateReadMultiScrbltOrder (multiScrblt : MultiScrbltOrder) : OrderReader MultiScrbltOrder := do
  let nLeftRect ← readOrderFieldCoord info 1 multiScrblt.nLeftRect
  let nTopRect ← readOrderFieldCoord info 2 multiScrblt.nTopRect
  let nWidth ← readOrderFieldCoord info 3 multiScrblt.nWidth
  let nHeight ← readOrderFieldCoord info 4 multiScrblt.nHeight
  let bRop ← readOrderFieldByte info 5 multiScrblt.bRop
  let nXSrc ← readOrderFieldCoord info 6 multiScrblt.nXSrc
  let nYSrc ← readOrderFieldCoord info 7 multiScrblt.nYSrc
  let numRectangles ← readOrderFieldByte info 8 multiScrblt.numRectangles
  let rects ← readOrderRects info 9 numRectangles multiScrblt.toOrderRects
  return { rects with nLeftRect, nTopRect, nWidth, nHeight, bRop, nXSrc, nYSrc }

def updateReadMultiOpaqueRectOrder (multiOpaqueRect : MultiOpaqueRectOrder) :
    OrderReader MultiOpaqueRectOrder := do
  let nLeftRect ← readOrderFieldCoord info 1 multiOpaqueRect.nLeftRect
  let nTopRect ← readOrderFieldCoord info 2 multiOpaqueRect.nTopRect
  let nWidth ← readOrderFieldCoord info 3 multiOpaqueRect.nWidth
  let nHeight ← readOrderFieldCoord info 4 multiOpaqueRect.nHeight
  let color ← readOrderColorBytes info multiOpaqueRect.color
  let numRectangles ← readOrderFieldByte info 8 multiOpaqueRect.numRectangles
  let rects ← readOrderRects info 9 numRectangles multiOpaqueRect.toOrderRects
  return { rects with nLeftRect, nTopRect, nWidth, nHeight, color }

def updateReadMultiDrawNineGridOrder (multiDrawNineGrid : MultiDrawNineGridOrder) :
    OrderReader MultiDrawNineGridOrder := do
  let srcLeft ← readOrderFieldCoord info 1 multiDrawNineGrid.srcLeft
  let srcTop ← readOrderFieldCoord info 2 multiDrawNineGrid.srcTop
  let srcRight ← readOrderFieldCoord info 3 multiDrawNineGrid.srcRight
  let srcBottom ← readOrderFieldCoord info 4 multiDrawNineGrid.srcBottom
  let bitmapId ← readOrderFieldUint16 info 5 multiDrawNineGrid.bitmapId
  let nDeltaEntries ← readOrderFieldByte info 6 multiDrawNineGrid.numRectangles
  let rects ← readOrderRects info 7 nDeltaEntries multiDrawNineGrid.toOrderRects
  return { rects with srcLeft, srcTop, srcRight, srcBottom, bitmapId }

def updateReadLineToOrder (lineTo : LineToOrder) : OrderReader LineToOrder := do
  let backMode ← readOrderFieldUint16 info 1 lineTo.backMode
  let nXStart ← readOrderFieldCoord info 2 lineTo.nXStart
  let nYStart ← readOrderFieldCoord info 3 lineTo.nYStart
  let nXEnd ← readOrderFieldCoord info 4 lineTo.nXEnd
  let nYEnd ← readOrderFieldCoord info 5 lineTo.nYEnd
  let backColor ← readOrderFieldColor info 6 lineTo.backColor
  let bRop2 ← readOrderFieldByte info 7 lineTo.bRop2
  let penStyle ← readOrderFieldByte info 8 lineTo.penStyle
  let penWidth ← readOrderFieldByte info 9 lineTo.penWidth
  let penColor ← readOrderFieldColor info 10 lineTo.penColor
  return { backMode, nXStart, nYStart, nXEnd, nYEnd, backColor, bRop2, penStyle, penWidth, penColor }

def updateReadPolylineOrder (polyline : PolylineOrder) : OrderReader PolylineOrder := do
  let xStart ← readOrderFieldCoord info 1 polyline.xStart
  let yStart ← readOrderFieldCoord info 2 polyline.yStart
  let bRop2 ← readOrderFieldByte info 3 polyline.bRop2
  -- the brush cache entry is dropped
  let _word ← readOrderFieldUint16 info 4 0
  let penColor ← readOrderFieldColor info 5 polyline.penColor
  let newNum ← readOrderFieldByte info 6 polyline.numPoints
  let points ← readOrderPoints info 7 newNum xStart yStart polyline.toOrderPoints
  return { points with xStart, yStart, bRop2, penColor }

/-- The colour index is the high byte of the cache id, which is cut down to its low byte. -/
def updateReadMembltOrder (memblt : MembltOrder) : OrderReader MembltOrder := do
  let cacheId ← readOrderFieldUint16 info 1 memblt.cacheId
  let nLeftRect ← readOrderFieldCoord info 2 memblt.nLeftRect
  let nTopRect ← readOrderFieldCoord info 3 memblt.nTopRect
  let nWidth ← readOrderFieldCoord info 4 memblt.nWidth
  let nHeight ← readOrderFieldCoord info 5 memblt.nHeight
  let bRop ← readOrderFieldByte info 6 memblt.bRop
  let nXSrc ← readOrderFieldCoord info 7 memblt.nXSrc
  let nYSrc ← readOrderFieldCoord info 8 memblt.nYSrc
  let cacheIndex ← readOrderFieldUint16 info 9 memblt.cacheIndex
  return { nLeftRect, nTopRect, nWidth, nHeight, bRop, nXSrc, nYSrc, cacheIndex,
           colorIndex := cacheId >>> 8, cacheId := cacheId &&& 0xFF }

def updateReadMem3bltOrder (mem3blt : Mem3bltOrder) : OrderReader Mem3bltOrder := do
  let cacheId ← readOrderFieldUint16 info 1 mem3blt.cacheId
  let nLeftRect ← readOrderFieldCoord info 2 mem3blt.nLeftRect
  let nTopRect ← readOrderFieldCoord info 3 mem3blt.nTopRect
  let nWidth ← readOrderFieldCoord info 4 mem3blt.nWidth
  let nHeight ← readOrderFieldCoord info 5 mem3blt.nHeight
  let bRop ← readOrderFieldByte info 6 mem3blt.bRop
  let nXSrc ← readOrderFieldCoord info 7 mem3blt.nXSrc
  let nYSrc ← readOrderFieldCoord info 8 mem3blt.nYSrc
  let backColor ← readOrderFieldColor info 9 mem3blt.backColor
  let foreColor ← readOrderFieldColor info 10 mem3blt.foreColor
  let brush ← updateReadBrush mem3blt.brush (brushFieldFlags info 10)
  let cacheIndex ← readOrderFieldUint16 info 16 mem3blt.cacheIndex
  return { nLeftRect, nTopRect, nWidth, nHeight, bRop, nXSrc, nYSrc, backColor, foreColor, brush, cacheIndex,
           colorIndex := cacheId >>> 8, cacheId := cacheId &&& 0xFF }

def updateReadSaveBitmapOrder (saveBitmap : SaveBitmapOrder) : OrderReader SaveBitmapOrder := do
  let savedBitmapPosition ← readOrderFieldUint32 info 1 saveBitmap.savedBitmapPosition
  let nLeftRect ← readOrderFieldCoord info 2 saveBitmap.nLeftRect
  let nTopRect ← readOrderFieldCoord info 3 saveBitmap.nTopRect
  let nRightRect ← readOrderFieldCoord info 4 saveBitmap.nRightRect
  let nBottomRect ← readOrderFieldCoord info 5 saveBitmap.nBottomRect
  let operation ← readOrderFieldByte info 6 saveBitmap.operation
  return { savedBitmapPosition, nLeftRect, nTopRect, nRightRect, nBottomRect, operation }

def readOrderData (number : Nat) (cbData : Nat) (data : List UInt8) : OrderReader (Nat × List UInt8) :=
  readOrderField info.fieldFlags number (cbData, data) do
    let cbData ← orderReadUint 1
    let bytes ← readBytes .refused cbData
    return (cbData, copyMemory data bytes)

def updateReadGlyphIndexOrder (glyphIndex : GlyphIndexOrder) : OrderReader GlyphIndexOrder := do
  let cacheId ← readOrderFieldByte info 1 glyphIndex.cacheId
  let flAccel ← readOrderFieldByte info 2 glyphIndex.flAccel
  let ulCharInc ← readOrderFieldByte info 3 glyphIndex.ulCharInc
  let fOpRedundant ← readOrderFieldByte info 4 glyphIndex.fOpRedundant
  let backColor ← readOrderFieldColor info 5 glyphIndex.backColor
  let foreColor ← readOrderFieldColor info 6 glyphIndex.foreColor
  let bkLeft ← readOrderFieldInt16 info 7 glyphIndex.bkLeft
  let bkTop ← readOrderFieldInt16 info 8 glyphIndex.bkTop
  let bkRight ← readOrderFieldInt16 info 9 glyphIndex.bkRight
  let bkBottom ← readOrderFieldInt16 info 10 glyphIndex.bkBottom
  let opLeft ← readOrderFieldInt16 info 11 glyphIndex.opLeft
  let opTop ← readOrderFieldInt16 info 12 glyphIndex.opTop
  let opRight ← readOrderFieldInt16 info 13 glyphIndex.opRight
  let opBottom ← readOrderFieldInt16 info 14 glyphIndex.opBottom
  let brush ← updateReadBrush glyphIndex.brush (brushFieldFlags info 14)
  let x ← readOrderFieldInt16 info 20 glyphIndex.x
  let y ← readOrderFieldInt16 info 21 glyphIndex.y
  let (cbData, data) ← readOrderData info 22 glyphIndex.cbData glyphIndex.data
  return { cacheId, flAccel, ulCharInc, fOpRedundant, backColor, foreColor, bkLeft, bkTop, bkRight,
           bkBottom, opLeft, opTop, opRight, opBottom, brush, x, y, cbData, data }

def updateReadFastIndexOrder (fastIndex : FastIndexOrder) : OrderReader FastIndexOrder := do
  let cacheId ← readOrderFieldByte info 1 fastIndex.cacheId
  let (ulCharInc, flAccel) ← readOrderField2bytes info 2 (fastIndex.ulCharInc, fastIndex.flAccel)
  let backColor ← readOrderFieldColor info 3 fastIndex.backColor
  let foreColor ← readOrderFieldColor info 4 fastIndex.foreColor
  let bkLeft ← readOrderFieldCoord info 5 fastIndex.bkLeft
  let bkTop ← readOrderFieldCoord info 6 fastIndex.bkTop
  let bkRight ← readOrderFieldCoord info 7 fastIndex.bkRight
  let bkBottom ← readOrderFieldCoord info 8 fastIndex.bkBottom
  let opLeft ← readOrderFieldCoord info 9 fastIndex.opLeft
  let opTop ← readOrderFieldCoord info 10 fastIndex.opTop
  let opRight ← readOrderFieldCoord info 11 fastIndex.opRight
  let opBottom ← readOrderFieldCoord info 12 fastIndex.opBottom
  let x ← readOrderFieldCoord info 13 fastIndex.x
  let y ← readOrderFieldCoord info 14 fastIndex.y
  let (cbData, data) ← readOrderData info 15 fastIndex.cbData fastIndex.data
  return { cacheId, flAccel, ulCharInc, backColor, foreColor, bkLeft, bkTop, bkRight, bkBottom,
           opLeft, opTop, opRight, opBottom, x, y, cbData, data }

/-- The glyph inside the data of a fast glyph: a lone cache index leaves the rest as it was. -/
def readFastGlyphData (glyph : GlyphDataV2) (bytes : List UInt8) : Except Stop GlyphDataV2 :=
  Prod.fst <$> StateT.run (m := Except Stop) (do
    let cacheIndex ← orderReadUint 1
    if bytes.length > 1 then do
      let x ← updateRead2byteSigned
      let y ← updateRead2byteSigned
      let cx ← updateRead2byteUnsigned
      let cy ← updateRead2byteUnsigned
      orderRequire (cx ≠ 0 ∧ cy ≠ 0)
      let aj ← get
      return { cacheIndex, x, y, cx, cy, cb := aj.length, aj }
    else return { glyph with cacheIndex }) bytes

def updateReadFastGlyphOrder (fastGlyph : FastGlyphOrder) : OrderReader FastGlyphOrder := do
  let cacheId ← readOrderFieldByte info 1 fastGlyph.cacheId
  orderRequire (cacheId ≤ 9)
  let (ulCharInc, flAccel) ← readOrderField2bytes info 2 (fastGlyph.ulCharInc, fastGlyph.flAccel)
  let backColor ← readOrderFieldColor info 3 fastGlyph.backColor
  let foreColor ← readOrderFieldColor info 4 fastGlyph.foreColor
  let bkLeft ← readOrderFieldCoord info 5 fastGlyph.bkLeft
  let bkTop ← readOrderFieldCoord info 6 fastGlyph.bkTop
  let bkRight ← readOrderFieldCoord info 7 fastGlyph.bkRight
  let bkBottom ← readOrderFieldCoord info 8 fastGlyph.bkBottom
  let opLeft ← readOrderFieldCoord info 9 fastGlyph.opLeft
  let opTop ← readOrderFieldCoord info 10 fastGlyph.opTop
  let opRight ← readOrderFieldCoord info 11 fastGlyph.opRight
  let opBottom ← readOrderFieldCoord info 12 fastGlyph.opBottom
  let x ← readOrderFieldCoord info 13 fastGlyph.x
  let y ← readOrderFieldCoord info 14 fastGlyph.y
  let (cbData, data, glyphData) ←
    readOrderField info.fieldFlags 15 (fastGlyph.cbData, fastGlyph.data, fastGlyph.glyphData) do
      let cbData ← orderReadUint 1
      let bytes ← readBytes .refused cbData
      orderRequire (cbData ≠ 0)
      let glyphData ← readFastGlyphData fastGlyph.glyphData bytes
      return (cbData, copyMemory fastGlyph.data bytes, glyphData)
  return { cacheId, flAccel, ulCharInc, backColor, foreColor, bkLeft, bkTop, bkRight, bkBottom,
           opLeft, opTop, opRight, opBottom, x, y, cbData, data, glyphData }

def updateReadPolygonScOrder (polygonSc : PolygonScOrder) : OrderReader PolygonScOrder := do
  let xStart ← readOrderFieldCoord info 1 polygonSc.xStart
  let yStart ← readOrderFieldCoord info 2 polygonSc.yStart
  let bRop2 ← readOrderFieldByte info 3 polygonSc.bRop2
  let fillMode ← readOrderFieldByte info 4 polygonSc.fillMode
  let brushColor ← readOrderFieldColor info 5 polygonSc.brushColor
  let num ← readOrderFieldByte info 6 polygonSc.numPoints
  let points ← readOrderPoints info 7 num xStart yStart polygonSc.toOrderPoints
  return { points with xStart, yStart, bRop2, fillMode, brushColor }

def BACKMODE_TRANSPARENT : Nat := 1
def BACKMODE_OPAQUE : Nat := 2

/-- The number is compared after the data too.  The background mode is the high bit of the raster
operation, which is cut down to its low bits. -/
def updateReadPolygonCbOrder (polygonCb : PolygonCbOrder) : OrderReader PolygonCbOrder := do
  let xStart ← readOrderFieldCoord info 1 polygonCb.xStart
  let yStart ← readOrderFieldCoord info 2 polygonCb.yStart
  let bRop2 ← readOrderFieldByte info 3 polygonCb.bRop2
  let fillMode ← readOrderFieldByte info 4 polygonCb.fillMode
  let backColor ← readOrderFieldColor info 5 polygonCb.backColor
  let foreColor ← readOrderFieldColor info 6 polygonCb.foreColor
  let brush ← updateReadBrush polygonCb.brush (brushFieldFlags info 6)
  let num ← readOrderFieldByte info 12 polygonCb.numPoints
  let points ← readOrderField info.fieldFlags 13 polygonCb.toOrderPoints do
    orderRequire (num ≠ 0)
    let cbData ← orderReadUint 1
    orderRequire (checkValFitsInt16 xStart ∧ checkValFitsInt16 yStart)
    let points ← updateReadDeltaPoints num
    return { numPoints := num, cbData, points }
  orderRequire (num ≤ points.numPoints)
  return { points with numPoints := num, xStart, yStart, fillMode, backColor, foreColor, brush,
                       backMode := if bRop2 &&& 0x80 ≠ 0 then BACKMODE_TRANSPARENT else BACKMODE_OPAQUE,
                       bRop2 := bRop2 &&& 0x1F }

def updateReadEllipseScOrder (ellipseSc : EllipseScOrder) : OrderReader EllipseScOrder := do
  let leftRect ← readOrderFieldCoord info 1 ellipseSc.leftRect
  let topRect ← readOrderFieldCoord info 2 ellipseSc.topRect
  let rightRect ← readOrderFieldCoord info 3 ellipseSc.rightRect
  let bottomRect ← readOrderFieldCoord info 4 ellipseSc.bottomRect
  let bRop2 ← readOrderFieldByte info 5 ellipseSc.bRop2
  let fillMode ← readOrderFieldByte info 6 ellipseSc.fillMode
  let color ← readOrderFieldColor info 7 ellipseSc.color
  return { leftRect, topRect, rightRect, bottomRect, bRop2, fillMode, color }

def updateReadEllipseCbOrder (ellipseCb : EllipseCbOrder) : OrderReader EllipseCbOrder := do
  let leftRect ← readOrderFieldCoord info 1 ellipseCb.leftRect
  let topRect ← readOrderFieldCoord info 2 ellipseCb.topRect
  let rightRect ← readOrderFieldCoord info 3 ellipseCb.rightRect
  let bottomRect ← readOrderFieldCoord info 4 ellipseCb.bottomRect
  let bRop2 ← readOrderFieldByte info 5 ellipseCb.bRop2
  let fillMode ← readOrderFieldByte info 6 ellipseCb.fillMode
  let backColor ← readOrderFieldColor info 7 ellipseCb.backColor
  let foreColor ← readOrderFieldColor info 8 ellipseCb.foreColor
  let brush ← updateReadBrush ellipseCb.brush (brushFieldFlags info 8)
  return { leftRect, topRect, rightRect, bottomRect, bRop2, fillMode, backColor, foreColor, brush }

/-! ## Order types -/

inductive PrimaryOrderType where
  | dstblt
  | patblt
  | scrblt
  | drawNineGrid
  | multiDrawNineGrid
  | lineTo
  | opaqueRect
  | saveBitmap
  | memblt
  | mem3blt
  | multiDstblt
  | multiPatblt
  | multiScrblt
  | multiOpaqueRect
  | fastIndex
  | polygonSc
  | polygonCb
  | polyline
  | fastGlyph
  | ellipseSc
  | ellipseCb
  | glyphIndex
deriving DecidableEq

def PrimaryOrderType.ofCode : Nat → Option PrimaryOrderType
  | 0x00 => some dstblt
  | 0x01 => some patblt
  | 0x02 => some scrblt
  | 0x07 => some drawNineGrid
  | 0x08 => some multiDrawNineGrid
  | 0x09 => some lineTo
  | 0x0A => some opaqueRect
  | 0x0B => some saveBitmap
  | 0x0D => some memblt
  | 0x0E => some mem3blt
  | 0x0F => some multiDstblt
  | 0x10 => some multiPatblt
  | 0x11 => some multiScrblt
  | 0x12 => some multiOpaqueRect
  | 0x13 => some fastIndex
  | 0x14 => some polygonSc
  | 0x15 => some polygonCb
  | 0x16 => some polyline
  | 0x18 => some fastGlyph
  | 0x19 => some ellipseSc
  | 0x1A => some ellipseCb
  | 0x1B => some glyphIndex
  | _ => none

def PrimaryOrderType.code : PrimaryOrderType → Nat
  | dstblt => 0x00
  | patblt => 0x01
  | scrblt => 0x02
  | drawNineGrid => 0x07
  | multiDrawNineGrid => 0x08
  | lineTo => 0x09
  | opaqueRect => 0x0A
  | saveBitmap => 0x0B
  | memblt => 0x0D
  | mem3blt => 0x0E
  | multiDstblt => 0x0F
  | multiPatblt => 0x10
  | multiScrblt => 0x11
  | multiOpaqueRect => 0x12
  | fastIndex => 0x13
  | polygonSc => 0x14
  | polygonCb => 0x15
  | polyline => 0x16
  | fastGlyph => 0x18
  | ellipseSc => 0x19
  | ellipseCb => 0x1A
  | glyphIndex => 0x1B

theorem PrimaryOrderType.ofCode_code (type : PrimaryOrderType) : ofCode type.code = some type := by
  cases type <;> rfl

def PrimaryOrderType.fieldBytes : PrimaryOrderType → Nat
  | dstblt | scrblt | drawNineGrid | multiDrawNineGrid | opaqueRect | saveBitmap | multiDstblt | polygonSc | polyline
  | ellipseSc => 1
  | patblt | lineTo | memblt | multiPatblt | multiScrblt | multiOpaqueRect | fastIndex | polygonCb | fastGlyph
  | ellipseCb => 2
  | mem3blt | glyphIndex => 3

/-- The codes below 28 that stand for no order have no field flags. -/
def getPrimaryDrawingOrderFieldBytes (orderType : Nat) : Option Nat :=
  match PrimaryOrderType.ofCode orderType with
  | some type => some type.fieldBytes
  | none => if orderType ≤ 27 then some 0 else none

structure PrimaryOrders where
  dstblt : DstbltOrder := {}
  patblt : PatbltOrder := {}
  scrblt : ScrbltOrder := {}
  drawNineGrid : DrawNineGridOrder := {}
  multiDrawNineGrid : MultiDrawNineGridOrder := {}
  lineTo : LineToOrder := {}
  opaqueRect : OpaqueRectOrder := {}
  saveBitmap : SaveBitmapOrder := {}
  memblt : MembltOrder := {}
  mem3blt : Mem3bltOrder := {}
  multiDstblt : MultiDstbltOrder := {}
  multiPatblt : MultiPatbltOrder := {}
  multiScrblt : MultiScrbltOrder := {}
  multiOpaqueRect : MultiOpaqueRectOrder := {}
  fastIndex : FastIndexOrder := {}
  polygonSc : PolygonScOrder := {}
  polygonCb : PolygonCbOrder := {}
  polyline : PolylineOrder := {}
  fastGlyph : FastGlyphOrder := {}
  ellipseSc : EllipseScOrder := {}
  ellipseCb : EllipseCbOrder := {}
  glyphIndex : GlyphIndexOrder := {}

def readOrderOfType (orders : PrimaryOrders) : PrimaryOrderType → OrderReader PrimaryOrders
  | .dstblt => do return { orders with dstblt := ← updateReadDstbltOrder info orders.dstblt }
  | .patblt => do return { orders with patblt := ← updateReadPatbltOrder info orders.patblt }
  | .scrblt => do return { orders with scrblt := ← updateReadScrbltOrder info orders.scrblt }
  | .drawNineGrid => do
    return { orders with drawNineGrid := ← updateReadDrawNineGridOrder info orders.drawNineGrid }
  | .multiDrawNineGrid => do
    return { orders with
      multiDrawNineGrid := ← updateReadMultiDrawNineGridOrder info orders.multiDrawNineGrid }
  | .lineTo => do return { orders with lineTo := ← updateReadLineToOrder info orders.lineTo }
  | .opaqueRect => do
    return { orders with opaqueRect := ← updateReadOpaqueRectOrder info orders.opaqueRect }
  | .saveBitmap => do
    return { orders with saveBitmap := ← updateReadSaveBitmapOrder info orders.saveBitmap }
  | .memblt => do return { orders with memblt := ← updateReadMembltOrder info orders.memblt }
  | .mem3blt => do return { orders with mem3blt := ← updateReadMem3bltOrder info orders.mem3blt }
  | .multiDstblt => do
    return { orders with multiDstblt := ← updateReadMultiDstbltOrder info orders.multiDstblt }
  | .multiPatblt => do
    return { orders with multiPatblt := ← updateReadMultiPatbltOrder info orders.multiPatblt }
  | .multiScrblt => do
    return { orders with multiScrblt := ← updateReadMultiScrbltOrder info orders.multiScrblt }
  | .multiOpaqueRect => do
    return { orders with
      multiOpaqueRect := ← updateReadMultiOpaqueRectOrder info orders.multiOpaqueRect }
  | .fastIndex => do return { orders with fastIndex := ← updateReadFastIndexOrder info orders.fastIndex }
  | .polygonSc => do return { orders with polygonSc := ← updateReadPolygonScOrder info orders.polygonSc }
  | .polygonCb => do return { orders with polygonCb := ← updateReadPolygonCbOrder info orders.polygonCb }
  | .polyline => do return { orders with polyline := ← updateReadPolylineOrder info orders.polyline }
  | .fastGlyph => do return { orders with fastGlyph := ← updateReadFastGlyphOrder info orders.fastGlyph }
  | .ellipseSc => do return { orders with ellipseSc := ← updateReadEllipseScOrder info orders.ellipseSc }
  | .ellipseCb => do return { orders with ellipseCb := ← updateReadEllipseCbOrder info orders.ellipseCb }
  | .glyphIndex => do
    return { orders with glyphIndex := ← updateReadGlyphIndexOrder info orders.glyphIndex }

/-- An order of another type is ignored. -/
def readPrimaryOrder (orders : PrimaryOrders) : OrderReader PrimaryOrders :=
  match PrimaryOrderType.ofCode info.orderType with
  | some type => readOrderOfType info orders type
  | none => pure orders

/-! ## Receiving -/

def ORDER_BOUNDS : Nat := 0x04
def ORDER_TYPE_CHANGE : Nat := 0x08
def ORDER_DELTA_COORDINATES : Nat := 0x10
def ORDER_ZERO_BOUNDS_DELTAS : Nat := 0x20
def ORDER_ZERO_FIELD_BYTE_BIT0 : Nat := 0x40
def ORDER_ZERO_FIELD_BYTE_BIT1 : Nat := 0x80

structure OrderSettings where
  /-- `OrderSupport`, under the order that an index announces. -/
  orderSupport : PrimaryOrderType → Bool
  allowUnanouncedOrdersFromServer : Bool

/-- `MultiScrBlt` goes with `MultiDstBlt`, and `PatBlt` and `OpaqueRect` imply each other. -/
def checkPrimaryOrderSupported (settings : OrderSettings) (orderType : Nat) : Bool :=
  (match PrimaryOrderType.ofCode orderType with
    | none => false
    | some .patblt | some .opaqueRect =>
        settings.orderSupport .opaqueRect || settings.orderSupport .patblt
    | some .multiScrblt => settings.orderSupport .multiDstblt
    | some type => settings.orderSupport type) ||
  settings.allowUnanouncedOrdersFromServer

/-- `fieldBytes` is a byte, so taking one off none leaves 255. -/
def zeroFieldBytes (flags fieldBytes : Nat) : Nat :=
  let fieldBytes :=
    if flags &&& ORDER_ZERO_FIELD_BYTE_BIT0 ≠ 0 then (fieldBytes + 255) % 256 else fieldBytes
  if flags &&& ORDER_ZERO_FIELD_BYTE_BIT1 ≠ 0 then fieldBytes - 2 else fieldBytes

def updateReadFieldFlags (flags fieldBytes : Nat) : OrderReader Nat := do
  let fieldFlags ← orderReadUint (zeroFieldBytes flags fieldBytes)
  return fieldFlags % 2 ^ 32

def updateReadBound (flags absolute delta : Nat) (bound : Int) : OrderReader Int :=
  if flags &&& absolute ≠ 0 then updateReadCoord bound false
  else if flags &&& delta ≠ 0 then updateReadCoord bound true
  else pure bound

def updateReadBounds (bounds : RdpBounds) : OrderReader RdpBounds := do
  let flags ← orderReadUint 1
  let left ← updateReadBound flags 0x01 0x10 bounds.left
  let top ← updateReadBound flags 0x02 0x20 bounds.top
  let right ← updateReadBound flags 0x04 0x40 bounds.right
  let bottom ← updateReadBound flags 0x08 0x80 bounds.bottom
  return { left, top, right, bottom }

structure OrderCallbacks where
  /-- No bounds are `NULL`. -/
  setBounds : Option RdpBounds → Bool
  orderInfo : OrderInfo → Bool
  draw : PrimaryOrderType → PrimaryOrders → Bool

structure RdpPrimaryUpdate where
  orderInfo : OrderInfo := {}
  orders : PrimaryOrders := {}

def PrimaryOrders.loggedRop (orders : PrimaryOrders) : PrimaryOrderType → Nat
  | .dstblt => orders.dstblt.bRop
  | .patblt => orders.patblt.bRop
  | .scrblt => orders.scrblt.bRop
  | .multiDstblt => orders.multiDstblt.bRop
  | .multiPatblt => orders.multiPatblt.bRop
  | .multiScrblt => orders.multiScrblt.bRop
  | .memblt => orders.memblt.bRop
  | .mem3blt => orders.mem3blt.bRop
  | _ => 0

def drawPrimaryOrder (callbacks : OrderCallbacks) (orderType : Nat) (orders : PrimaryOrders) :
    OrderReader Unit :=
  match PrimaryOrderType.ofCode orderType with
  | some type => do
    orderAssert (orders.loggedRop type ≤ 0xFF)
    orderRequire (callbacks.draw type orders = true)
  | none => pure ()

def readOrderType (flags orderType : Nat) : OrderReader Nat :=
  if flags &&& ORDER_TYPE_CHANGE ≠ 0 then orderReadUint 1 else pure orderType

/-- The bounds stay unless there are bounds and not only zero deltas. -/
def readOrderBounds (flags : Nat) (bounds : RdpBounds) : OrderReader RdpBounds :=
  if flags &&& ORDER_BOUNDS ≠ 0 ∧
    flags &&& ORDER_ZERO_BOUNDS_DELTAS = 0 then updateReadBounds bounds else pure bounds

def setOrderBounds (callbacks : OrderCallbacks) (flags : Nat) (bounds : Option RdpBounds) :
    OrderReader Unit :=
  if flags &&& ORDER_BOUNDS ≠ 0 then orderRequire (callbacks.setBounds bounds = true) else pure ()

def updateRecvPrimaryOrder (settings : OrderSettings) (callbacks : OrderCallbacks) (flags : Nat)
    (primary : RdpPrimaryUpdate) : OrderReader RdpPrimaryUpdate := do
  let orderType ← readOrderType flags primary.orderInfo.orderType
  orderRequire (checkPrimaryOrderSupported settings orderType = true)
  match getPrimaryDrawingOrderFieldBytes orderType with
  | none => throw .refused
  | some field => do
    let fieldFlags ← updateReadFieldFlags flags field
    let bounds ← readOrderBounds flags primary.orderInfo.bounds
    setOrderBounds callbacks flags (some bounds)
    let orderInfo : OrderInfo :=
      { orderType, fieldFlags, bounds, deltaCoordinates := flags &&& ORDER_DELTA_COORDINATES ≠ 0 }
    let orders ← readPrimaryOrder orderInfo primary.orders
    orderRequire (callbacks.orderInfo orderInfo = true)
    drawPrimaryOrder callbacks orderType orders
    setOrderBounds callbacks flags none
    return { orderInfo, orders }

structure OrderCall where
  flags : Nat
  bytes : List UInt8
  callbacks : OrderCallbacks

def updateRecvPrimaryOrders (settings : OrderSettings) (primary : RdpPrimaryUpdate)
    (calls : List OrderCall) :
    Except Stop RdpPrimaryUpdate :=
  calls.foldlM
    (fun primary call => Prod.fst <$>
      (updateRecvPrimaryOrder settings call.callbacks call.flags primary).run call.bytes)
    primary

end KvmServer.Core
