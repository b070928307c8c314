import KvmServer.Core.Orders

/-! # What primary orders keep from each other

An order leaves a field as the last order of its type left it, if the flags of the wire fields from
which it is decoded are not set.  This fails for what `memblt`, `mem3blt` and `polygon_cb` split
off a packed field in place. -/

namespace KvmServer.Core
open Lib Winpr List Nat

def Kept {α : Type} (fieldFlags : Nat) (numbers : List Nat) (old new : α) : Prop :=
  (∀ number ∈ numbers, orderFieldFlagIsSet fieldFlags number = false) → new = old

/-! ## The fields of the orders -/

section Fields
variable (flags : Nat)

/-- The flags of a brush come behind those of `shift` fields.  The index of a cached brush is its
hatch, and the depth comes out of the style. -/
structure RdpBrush.Persists (shift : Nat) (old new : RdpBrush) : Prop where
  x : Kept flags [shift + 1] old.x new.x
  y : Kept flags [shift + 2] old.y new.y
  style : Kept flags [shift + 3] old.style new.style
  hatch : Kept flags [shift + 4] old.hatch new.hatch
  index : Kept flags [shift + 3, shift + 4] old.index new.index
  bpp : Kept flags [shift + 3] old.bpp new.bpp
  p8x8 : Kept flags [shift + 5] old.p8x8 new.p8x8

structure ColorPersists (old new : Nat) : Prop where
  red : Kept flags [5] (byteAt 0 old) (byteAt 0 new)
  green : Kept flags [6] (byteAt 1 old) (byteAt 1 new)
  blue : Kept flags [7] (byteAt 2 old) (byteAt 2 new)
  color : Kept flags [5, 6, 7] old new

structure OrderRects.Persists (numberField dataField : Nat) (old new : OrderRects) : Prop where
  numRectangles : Kept flags [numberField] old.numRectangles new.numRectangles
  cbData : Kept flags [dataField] old.cbData new.cbData
  rectangles : Kept flags [dataField] old.rectangles new.rectangles

structure OrderPoints.Persists (numberField dataField : Nat) (old new : OrderPoints) : Prop where
  numPoints : Kept flags [numberField] old.numPoints new.numPoints
  cbData : Kept flags [dataField] old.cbData new.cbData
  points : Kept flags [dataField] old.points new.points

structure DstbltOrder.Persists (old new : DstbltOrder) : Prop where
  nLeftRect : Kept flags [1] old.nLeftRect new.nLeftRect
  nTopRect : Kept flags [2] old.nTopRect new.nTopRect
  nWidth : Kept flags [3] old.nWidth new.nWidth
  nHeight : Kept flags [4] old.nHeight new.nHeight
  bRop : Kept flags [5] old.bRop new.bRop

structure PatbltOrder.Persists (old new : PatbltOrder) : Prop where
  nLeftRect : Kept flags [1] old.nLeftRect new.nLeftRect
  nTopRect : Kept flags [2] old.nTopRect new.nTopRect
  nWidth : Kept flags [3] old.nWidth new.nWidth
  nHeight : Kept flags [4] old.nHeight new.nHeight
  bRop : Kept flags [5] old.bRop new.bRop
  backColor : Kept flags [6] old.backColor new.backColor
  foreColor : Kept flags [7] old.foreColor new.foreColor
  brush : old.brush.Persists flags 7 new.brush

structure ScrbltOrder.Persists (old new : ScrbltOrder) : Prop where
  nLeftRect : Kept flags [1] old.nLeftRect new.nLeftRect
  nTopRect : Kept flags [2] old.nTopRect new.nTopRect
  nWidth : Kept flags [3] old.nWidth new.nWidth
  nHeight : Kept flags [4] old.nHeight new.nHeight
  bRop : Kept flags [5] old.bRop new.bRop
  nXSrc : Kept flags [6] old.nXSrc new.nXSrc
  nYSrc : Kept flags [7] old.nYSrc new.nYSrc

structure OpaqueRectOrder.Persists (old new : OpaqueRectOrder) : Prop where
  nLeftRect : Kept flags [1] old.nLeftRect new.nLeftRect
  nTopRect : Kept flags [2] old.nTopRect new.nTopRect
  nWidth : Kept flags [3] old.nWidth new.nWidth
  nHeight : Kept flags [4] old.nHeight new.nHeight
  color : ColorPersists flags old.color new.color

structure DrawNineGridOrder.Persists (old new : DrawNineGridOrder) : Prop where
  srcLeft : Kept flags [1] old.srcLeft new.srcLeft
  srcTop : Kept flags [2] old.srcTop new.srcTop
  srcRight : Kept flags [3] old.srcRight new.srcRight
  srcBottom : Kept flags [4] old.srcBottom new.srcBottom
  bitmapId : Kept flags [5] old.bitmapId new.bitmapId

structure MultiDstbltOrder.Persists (old new : MultiDstbltOrder) : Prop where
  nLeftRect : Kept flags [1] old.nLeftRect new.nLeftRect
  nTopRect : Kept flags [2] old.nTopRect new.nTopRect
  nWidth : Kept flags [3] old.nWidth new.nWidth
  nHeight : Kept flags [4] old.nHeight new.nHeight
  bRop : Kept flags [5] old.bRop new.bRop
  rects : old.toOrderRects.Persists flags 6 7 new.toOrderRects

structure MultiPatbltOrder.Persists (old new : MultiPatbltOrder) : Prop where
  nLeftRect : Kept flags [1] old.nLeftRect new.nLeftRect
  nTopRect : Kept flags [2] old.nTopRect new.nTopRect
  nWidth : Kept flags [3] old.nWidth new.nWidth
  nHeight : Kept flags [4] old.nHeight new.nHeight
  bRop : Kept flags [5] old.bRop new.bRop
  backColor : Kept flags [6] old.backColor new.backColor
  foreColor : Kept flags [7] old.foreColor new.foreColor
  brush : old.brush.Persists flags 7 new.brush
  rects : old.toOrderRects.Persists flags 13 14 new.toOrderRects

structure MultiScrbltOrder.Persists (old new : MultiScrbltOrder) : Prop where
  nLeftRect : Kept flags [1] old.nLeftRect new.nLeftRect
  nTopRect : Kept flags [2] old.nTopRect new.nTopRect
  nWidth : Kept flags [3] old.nWidth new.nWidth
  nHeight : Kept flags [4] old.nHeight new.nHeight
  bRop : Kept flags [5] old.bRop new.bRop
  nXSrc : Kept flags [6] old.nXSrc new.nXSrc
  nYSrc : Kept flags [7] old.nYSrc new.nYSrc
  rects : old.toOrderRects.Persists flags 8 9 new.toOrderRects

structure MultiOpaqueRectOrder.Persists (old new : MultiOpaqueRectOrder) : Prop where
  nLeftRect : Kept flags [1] old.nLeftRect new.nLeftRect
  nTopRect : Kept flags [2] old.nTopRect new.nTopRect
  nWidth : Kept flags [3] old.nWidth new.nWidth
  nHeight : Kept flags [4] old.nHeight new.nHeight
  color : ColorPersists flags old.color new.color
  rects : old.toOrderRects.Persists flags 8 9 new.toOrderRects

structure MultiDrawNineGridOrder.Persists (old new : MultiDrawNineGridOrder) : Prop where
  srcLeft : Kept flags [1] old.srcLeft new.srcLeft
  srcTop : Kept flags [2] old.srcTop new.srcTop
  srcRight : Kept flags [3] old.srcRight new.srcRight
  srcBottom : Kept flags [4] old.srcBottom new.srcBottom
  bitmapId : Kept flags [5] old.bitmapId new.bitmapId
  rects : old.toOrderRects.Persists flags 6 7 new.toOrderRects

structure LineToOrder.Persists (old new : LineToOrder) : Prop where
  backMode : Kept flags [1] old.backMode new.backMode
  nXStart : Kept flags [2] old.nXStart new.nXStart
  nYStart : Kept flags [3] old.nYStart new.nYStart
  nXEnd : Kept flags [4] old.nXEnd new.nXEnd
  nYEnd : Kept flags [5] old.nYEnd new.nYEnd
  backColor : Kept flags [6] old.backColor new.backColor
  bRop2 : Kept flags [7] old.bRop2 new.bRop2
  penStyle : Kept flags [8] old.penStyle new.penStyle
  penWidth : Kept flags [9] old.penWidth new.penWidth
  penColor : Kept flags [10] old.penColor new.penColor

structure PolylineOrder.Persists (old new : PolylineOrder) : Prop where
  xStart : Kept flags [1] old.xStart new.xStart
  yStart : Kept flags [2] old.yStart new.yStart
  bRop2 : Kept flags [3] old.bRop2 new.bRop2
  penColor : Kept flags [5] old.penColor new.penColor
  points : old.toOrderPoints.Persists flags 6 7 new.toOrderPoints

structure MembltOrder.Persists (old new : MembltOrder) : Prop where
  cacheId : Kept flags [1] old.cacheId new.cacheId
  colorIndex : Kept flags [1] old.colorIndex new.colorIndex
  nLeftRect : Kept flags [2] old.nLeftRect new.nLeftRect
  nTopRect : Kept flags [3] old.nTopRect new.nTopRect
  nWidth : Kept flags [4] old.nWidth new.nWidth
  nHeight : Kept flags [5] old.nHeight new.nHeight
  bRop : Kept flags [6] old.bRop new.bRop
  nXSrc : Kept flags [7] old.nXSrc new.nXSrc
  nYSrc : Kept flags [8] old.nYSrc new.nYSrc
  cacheIndex : Kept flags [9] old.cacheIndex new.cacheIndex

structure Mem3bltOrder.Persists (old new : Mem3bltOrder) : Prop where
  cacheId : Kept flags [1] old.cacheId new.cacheId
  colorIndex : Kept flags [1] old.colorIndex new.colorIndex
  nLeftRect : Kept flags [2] old.nLeftRect new.nLeftRect
  nTopRect : Kept flags [3] old.nTopRect new.nTopRect
  nWidth : Kept flags [4] old.nWidth new.nWidth
  nHeight : Kept flags [5] old.nHeight new.nHeight
  bRop : Kept flags [6] old.bRop new.bRop
  nXSrc : Kept flags [7] old.nXSrc new.nXSrc
  nYSrc : Kept flags [8] old.nYSrc new.nYSrc
  backColor : Kept flags [9] old.backColor new.backColor
  foreColor : Kept flags [10] old.foreColor new.foreColor
  brush : old.brush.Persists flags 10 new.brush
  cacheIndex : Kept flags [16] old.cacheIndex new.cacheIndex

structure SaveBitmapOrder.Persists (old new : SaveBitmapOrder) : Prop where
  savedBitmapPosition : Kept flags [1] old.savedBitmapPosition new.savedBitmapPosition
  nLeftRect : Kept flags [2] old.nLeftRect new.nLeftRect
  nTopRect : Kept flags [3] old.nTopRect new.nTopRect
  nRightRect : Kept flags [4] old.nRightRect new.nRightRect
  nBottomRect : Kept flags [5] old.nBottomRect new.nBottomRect
  operation : Kept flags [6] old.operation new.operation

structure GlyphIndexOrder.Persists (old new : GlyphIndexOrder) : Prop where
  cacheId : Kept flags [1] old.cacheId new.cacheId
  flAccel : Kept flags [2] old.flAccel new.flAccel
  ulCharInc : Kept flags [3] old.ulCharInc new.ulCharInc
  fOpRedundant : Kept flags [4] old.fOpRedundant new.fOpRedundant
  backColor : Kept flags [5] old.backColor new.backColor
  foreColor : Kept flags [6] old.foreColor new.foreColor
  bkLeft : Kept flags [7] old.bkLeft new.bkLeft
  bkTop : Kept flags [8] old.bkTop new.bkTop
  bkRight : Kept flags [9] old.bkRight new.bkRight
  bkBottom : Kept flags [10] old.bkBottom new.bkBottom
  opLeft : Kept flags [11] old.opLeft new.opLeft
  opTop : Kept flags [12] old.opTop new.opTop
  opRight : Kept flags [13] old.opRight new.opRight
  opBottom : Kept flags [14] old.opBottom new.opBottom
  brush : old.brush.Persists flags 14 new.brush
  x : Kept flags [20] old.x new.x
  y : Kept flags [21] old.y new.y
  text : Kept flags [22] (old.cbData, old.data) (new.cbData, new.data)

structure FastIndexOrder.Persists (old new : FastIndexOrder) : Prop where
  cacheId : Kept flags [1] old.cacheId new.cacheId
  increments : Kept flags [2] (old.ulCharInc, old.flAccel) (new.ulCharInc, new.flAccel)
  backColor : Kept flags [3] old.backColor new.backColor
  foreColor : Kept flags [4] old.foreColor new.foreColor
  bkLeft : Kept flags [5] old.bkLeft new.bkLeft
  bkTop : Kept flags [6] old.bkTop new.bkTop
  bkRight : Kept flags [7] old.bkRight new.bkRight
  bkBottom : Kept flags [8] old.bkBottom new.bkBottom
  opLeft : Kept flags [9] old.opLeft new.opLeft
  opTop : Kept flags [10] old.opTop new.opTop
  opRight : Kept flags [11] old.opRight new.opRight
  opBottom : Kept flags [12] old.opBottom new.opBottom
  x : Kept flags [13] old.x new.x
  y : Kept flags [14] old.y new.y
  text : Kept flags [15] (old.cbData, old.data) (new.cbData, new.data)

structure FastGlyphOrder.Persists (old new : FastGlyphOrder) : Prop where
  cacheId : Kept flags [1] old.cacheId new.cacheId
  increments : Kept flags [2] (old.ulCharInc, old.flAccel) (new.ulCharInc, new.flAccel)
  backColor : Kept flags [3] old.backColor new.backColor
  foreColor : Kept flags [4] old.foreColor new.foreColor
  bkLeft : Kept flags [5] old.bkLeft new.bkLeft
  bkTop : Kept flags [6] old.bkTop new.bkTop
  bkRight : Kept flags [7] old.bkRight new.bkRight
  bkBottom : Kept flags [8] old.bkBottom new.bkBottom
  opLeft : Kept flags [9] old.opLeft new.opLeft
  opTop : Kept flags [10] old.opTop new.opTop
  opRight : Kept flags [11] old.opRight new.opRight
  opBottom : Kept flags [12] old.opBottom new.opBottom
  x : Kept flags [13] old.x new.x
  y : Kept flags [14] old.y new.y
  glyph : Kept flags [15] (old.cbData, old.data, old.glyphData) (new.cbData, new.data, new.glyphData)

structure PolygonScOrder.Persists (old new : PolygonScOrder) : Prop where
  xStart : Kept flags [1] old.xStart new.xStart
  yStart : Kept flags [2] old.yStart new.yStart
  bRop2 : Kept flags [3] old.bRop2 new.bRop2
  fillMode : Kept flags [4] old.fillMode new.fillMode
  brushColor : Kept flags [5] old.brushColor new.brushColor
  points : old.toOrderPoints.Persists flags 6 7 new.toOrderPoints

/-- The raster operation and the background mode come in one field. -/
structure PolygonCbOrder.Persists (old new : PolygonCbOrder) : Prop where
  xStart : Kept flags [1] old.xStart new.xStart
  yStart : Kept flags [2] old.yStart new.yStart
  bRop2 : Kept flags [3] old.bRop2 new.bRop2
  backMode : Kept flags [3] old.backMode new.backMode
  fillMode : Kept flags [4] old.fillMode new.fillMode
  backColor : Kept flags [5] old.backColor new.backColor
  foreColor : Kept flags [6] old.foreColor new.foreColor
  brush : old.brush.Persists flags 6 new.brush
  points : old.toOrderPoints.Persists flags 12 13 new.toOrderPoints

structure EllipseScOrder.Persists (old new : EllipseScOrder) : Prop where
  leftRect : Kept flags [1] old.leftRect new.leftRect
  topRect : Kept flags [2] old.topRect new.topRect
  rightRect : Kept flags [3] old.rightRect new.rightRect
  bottomRect : Kept flags [4] old.bottomRect new.bottomRect
  bRop2 : Kept flags [5] old.bRop2 new.bRop2
  fillMode : Kept flags [6] old.fillMode new.fillMode
  color : Kept flags [7] old.color new.color

structure EllipseCbOrder.Persists (old new : EllipseCbOrder) : Prop where
  leftRect : Kept flags [1] old.leftRect new.leftRect
  topRect : Kept flags [2] old.topRect new.topRect
  rightRect : Kept flags [3] old.rightRect new.rightRect
  bottomRect : Kept flags [4] old.bottomRect new.bottomRect
  bRop2 : Kept flags [5] old.bRop2 new.bRop2
  fillMode : Kept flags [6] old.fillMode new.fillMode
  backColor : Kept flags [7] old.backColor new.backColor
  foreColor : Kept flags [8] old.foreColor new.foreColor
  brush : old.brush.Persists flags 8 new.brush

/-- The order of the type that was decoded last keeps the fields that did not come. -/
def PrimaryOrders.Persists (old new : PrimaryOrders) : PrimaryOrderType → Prop
  | .dstblt => old.dstblt.Persists flags new.dstblt
  | .patblt => old.patblt.Persists flags new.patblt
  | .scrblt => old.scrblt.Persists flags new.scrblt
  | .drawNineGrid => old.drawNineGrid.Persists flags new.drawNineGrid
  | .multiDrawNineGrid => old.multiDrawNineGrid.Persists flags new.multiDrawNineGrid
  | .lineTo => old.lineTo.Persists flags new.lineTo
  | .opaqueRect => old.opaqueRect.Persists flags new.opaqueRect
  | .saveBitmap => old.saveBitmap.Persists flags new.saveBitmap
  | .memblt => old.memblt.Persists flags new.memblt
  | .mem3blt => old.mem3blt.Persists flags new.mem3blt
  | .multiDstblt => old.multiDstblt.Persists flags new.multiDstblt
  | .multiPatblt => old.multiPatblt.Persists flags new.multiPatblt
  | .multiScrblt => old.multiScrblt.Persists flags new.multiScrblt
  | .multiOpaqueRect => old.multiOpaqueRect.Persists flags new.multiOpaqueRect
  | .fastIndex => old.fastIndex.Persists flags new.fastIndex
  | .polygonSc => old.polygonSc.Persists flags new.polygonSc
  | .polygonCb => old.polygonCb.Persists flags new.polygonCb
  | .polyline => old.polyline.Persists flags new.polyline
  | .fastGlyph => old.fastGlyph.Persists flags new.fastGlyph
  | .ellipseSc => old.ellipseSc.Persists flags new.ellipseSc
  | .ellipseCb => old.ellipseCb.Persists flags new.ellipseCb
  | .glyphIndex => old.glyphIndex.Persists flags new.glyphIndex

end Fields

/-! ## Single fields -/

variable {fieldFlags number : Nat} {α : Type}

theorem field_kept {target : α} {read : OrderReader α} :
    Ensures (readOrderField fieldFlags number target read) (Kept fieldFlags [number] target) := by
  apply Ensures.ite
  · intro set
    refine (Ensures.trivial read).weaken fun value _ absent => ?_
    rw [absent number mem_cons_self] at set
    cases set
  intro _
  exact .pure fun _ => rfl

theorem flagIsSet_eq_testBit (fieldFlags number : Nat) :
    orderFieldFlagIsSet fieldFlags (number + 1) = fieldFlags.testBit number := by
  rw [orderFieldFlagIsSet, Nat.add_sub_cancel, one_shiftLeft, and_two_pow]
  cases fieldFlags.testBit number with
  | false => simp
  | true => simp

theorem flagIsSet_brush (info : OrderInfo) (shift : Nat) (few : number < 5) :
    orderFieldFlagIsSet (brushFieldFlags info shift) (number + 1) =
      orderFieldFlagIsSet info.fieldFlags (shift + (number + 1)) := by
  have inside : testBit 0x1F number = true := by
    rw [show (0x1F : Nat) = 2 ^ 5 - 1 from rfl, testBit_two_pow_sub_one]
    exact decide_eq_true few
  rw [flagIsSet_eq_testBit, ← add_assoc, flagIsSet_eq_testBit, brushFieldFlags,
    testBit_and, testBit_shiftRight, inside, Bool.and_true]

theorem Kept.map {β : Type} {nums : List Nat} {pre new : α} (kept : Kept fieldFlags nums pre new)
    (f : α → β) : Kept fieldFlags nums (f pre) (f new) :=
  fun absent => congrArg f (kept absent)

theorem Kept.of_brush {info : OrderInfo} {shift : Nat} {pre new : α}
    (kept : Kept (brushFieldFlags info shift) [number + 1] pre new) (few : number < 5) :
    Kept info.fieldFlags [shift + (number + 1)] pre new := by
  intro absent
  apply kept
  intro _ mem
  rw [mem_singleton.mp mem, flagIsSet_brush info shift few]
  exact absent _ mem_cons_self

/-- `index` and `bpp` of a cached brush are what is read off its style and hatch. -/
def RdpBrush.Settled (brush : RdpBrush) : Prop :=
  brush.style &&& CACHED_BRUSH ≠ 0 →
    brush.index = brush.hatch ∧ ∃ bpp, getBmfBpp brush.style = some bpp ∧
      brush.bpp = if bpp = 0 then 1 else bpp

theorem readCachedBrush_ensures (brush : RdpBrush) (style hatch : Nat) :
    Ensures (readCachedBrush brush style hatch) fun res => (style &&& CACHED_BRUSH ≠ 0 →
        res.1 = hatch ∧ ∃ bpp, getBmfBpp style = some bpp ∧ res.2 = if bpp = 0 then 1 else bpp) ∧
      (¬style &&& CACHED_BRUSH ≠ 0 → res = (brush.index, brush.bpp)) := by
  apply Ensures.ite
  · intro cached
    cases depth : getBmfBpp style with
    | none => exact .throw _ _
    | some bpp => exact .pure ⟨fun _ => ⟨rfl, bpp, rfl, rfl⟩, fun plain => absurd cached plain⟩
  intro plain
  exact .pure ⟨fun cached => absurd cached plain, fun _ => rfl⟩

theorem readBrush_ensures (info : OrderInfo) (shift : Nat) (pre : RdpBrush) :
    Ensures (updateReadBrush pre (brushFieldFlags info shift)) fun new =>
      new.Settled ∧ (pre.Settled → pre.Persists info.fieldFlags shift new) := by
  apply field_kept.bind
  intro x keptX
  apply field_kept.bind
  intro y keptY
  apply field_kept.bind
  intro style keptStyle
  apply field_kept.bind
  intro hatch keptHatch
  apply (readCachedBrush_ensures pre style hatch).bind
  rintro ⟨index, bpp⟩ ⟨cachedRes, plainRes⟩
  apply field_kept.bind
  intro p8x8 keptData
  have keptStyle := keptStyle.of_brush (Nat.lt_of_sub_eq_succ rfl)
  have keptHatch := keptHatch.of_brush (Nat.lt_of_sub_eq_succ rfl)
  refine .pure ⟨cachedRes, fun done => ?_⟩
  exact {
    x := keptX.of_brush (Nat.lt_of_sub_eq_succ rfl)
    y := keptY.of_brush (Nat.lt_of_sub_eq_succ rfl)
    style := keptStyle
    hatch := keptHatch
    index := by
      intro absent
      have sameStyle := keptStyle fun number mem => absent number (by simp_all)
      have sameHatch := keptHatch fun number mem => absent number (by simp_all)
      by_cases cached : style &&& CACHED_BRUSH ≠ 0
      · rw [(done (sameStyle ▸ cached)).1]
        exact (cachedRes cached).1.trans sameHatch
      · exact congrArg Prod.fst (plainRes cached)
    bpp := by
      intro absent
      have sameStyle := keptStyle absent
      by_cases cached : style &&& CACHED_BRUSH ≠ 0
      · obtain ⟨-, _, got, res⟩ := cachedRes cached
        obtain ⟨-, _, got', res'⟩ := done (sameStyle ▸ cached)
        rw [sameStyle, got'] at got
        cases got
        exact res.trans res'.symm
      · exact congrArg Prod.snd (plainRes cached)
    p8x8 := keptData.of_brush (Nat.lt_of_sub_eq_succ rfl) }

theorem readColorByte_ensures {k mask color : Nat} : Ensures (readOrderField fieldFlags number color do
        let byte ← orderReadUint 1
        return color &&& mask ||| byte <<< (8 * k))
      fun new => Kept fieldFlags [number] color new ∧
        ∀ i, i ≠ k → byteAt i mask = 0xFF → byteAt i new = byteAt i color := by
  apply Ensures.ite
  · intro set
    apply (readLE_ensures _ 1).bind
    intro byte lt
    refine .pure ⟨fun absent => ?_,
      fun i apart all => byteAt_masked color all (byteAt_shiftLeft_of_ne lt apart)⟩
    rw [absent number mem_cons_self] at set
    cases set
  intro _
  exact .pure ⟨fun _ => rfl, fun _ _ _ => rfl⟩

theorem readOrderColorBytes_ensures (info : OrderInfo) (pre : Nat) :
    Ensures (readOrderColorBytes info pre) (ColorPersists info.fieldFlags pre) := by
  apply (readColorByte_ensures (k := 0)).bind
  rintro _ ⟨keptFst, othersFst⟩
  apply (readColorByte_ensures (k := 1)).bind
  rintro _ ⟨keptSecond, othersSecond⟩
  refine (readColorByte_ensures (k := 2)).weaken ?_
  rintro _ ⟨keptThird, othersThird⟩
  exact {
    red := by
      intro absent
      rw [othersThird 0 (by decide) (by decide), othersSecond 0 (by decide) (by decide), keptFst absent]
    green := by
      intro absent
      rw [othersThird 1 (by decide) (by decide), keptSecond absent, othersFst 1 (by decide) (by decide)]
    blue := by
      intro absent
      rw [keptThird absent, othersSecond 2 (by decide) (by decide), othersFst 2 (by decide) (by decide)]
    color := by
      intro absent
      rw [keptThird fun number mem => absent number (by simp_all),
        keptSecond fun number mem => absent number (by simp_all),
        keptFst fun number mem => absent number (by simp_all)] }

/-! ## Rectangles and points -/

theorem Kept.of_set {a b : α} (set : orderFieldFlagIsSet fieldFlags number = true) :
    Kept fieldFlags [number] a b := by
  intro absent
  rw [absent number mem_cons_self] at set
  cases set

variable {numField dataField : Nat} {type : PrimaryOrderType} {inputs : List OrderInput}
  {decoded : List DecodedOrder}

theorem readOrderRects_persists (info : OrderInfo) (dataField : Nat) {numRs : Nat} {pre : OrderRects}
    (number : Kept info.fieldFlags [numField] pre.numRectangles numRs) :
    Ensures (readOrderRects info dataField numRs pre)
    (pre.Persists info.fieldFlags numField dataField) := by
  apply Ensures.ite
  · intro set
    apply Ensures.skip
    intro _
    apply Ensures.skip
    intro _
    exact .pure ⟨number, .of_set set, .of_set set⟩
  intro _
  apply Ensures.skip
  intro _
  exact .pure ⟨number, fun _ => rfl, fun _ => rfl⟩

theorem readOrderPoints_persists (info : OrderInfo) (dataField : Nat) (xSt ySt : Int) {numPoints : Nat}
    {pre : OrderPoints} (number : Kept info.fieldFlags [numField] pre.numPoints numPoints) :
    Ensures (readOrderPoints info dataField numPoints xSt ySt pre)
    (pre.Persists info.fieldFlags numField dataField) := by
  apply Ensures.ite
  · intro set
    iterate 4 (apply Ensures.skip; intro _)
    exact .pure ⟨number, .of_set set, .of_set set⟩
  intro _
  apply Ensures.skip
  intro _
  exact .pure ⟨number, fun _ => rfl, fun _ => rfl⟩

/-! ## Orders without a packed field -/

section Orders
variable (info : OrderInfo)

theorem dstblt_persists (pre : DstbltOrder) :
    Ensures (updateReadDstbltOrder info pre) (pre.Persists info.fieldFlags) := by
  iterate 5 (apply field_kept.bind; intro _ _)
  exact .pure (by constructor <;> assumption)

theorem patblt_persists (pre : PatbltOrder) : Ensures (updateReadPatbltOrder info pre) fun new =>
      new.brush.Settled ∧ (pre.brush.Settled → pre.Persists info.fieldFlags new) := by
  iterate 7 (apply field_kept.bind; intro _ _)
  apply (readBrush_ensures info 7 pre.brush).bind
  rintro brush ⟨done, persists⟩
  refine .pure ⟨done, fun donePre => ?_⟩
  have keptBrush := persists donePre
  constructor <;> assumption

theorem scrblt_persists (pre : ScrbltOrder) :
    Ensures (updateReadScrbltOrder info pre) (pre.Persists info.fieldFlags) := by
  iterate 7 (apply field_kept.bind; intro _ _)
  exact .pure (by constructor <;> assumption)

theorem opaqueRect_persists (pre : OpaqueRectOrder) :
    Ensures (updateReadOpaqueRectOrder info pre) (pre.Persists info.fieldFlags) := by
  iterate 4 (apply field_kept.bind; intro _ _)
  apply (readOrderColorBytes_ensures info pre.color).bind
  intro _ _
  exact .pure (by constructor <;> assumption)

theorem drawNineGrid_persists (pre : DrawNineGridOrder) :
    Ensures (updateReadDrawNineGridOrder info pre) (pre.Persists info.fieldFlags) := by
  iterate 5 (apply field_kept.bind; intro _ _)
  exact .pure (by constructor <;> assumption)

theorem multiDstblt_persists (pre : MultiDstbltOrder) :
    Ensures (updateReadMultiDstbltOrder info pre) (pre.Persists info.fieldFlags) := by
  iterate 5 (apply field_kept.bind; intro _ _)
  apply field_kept.bind
  intro _ number
  apply (readOrderRects_persists info 7 number).bind
  intro _ _
  exact .pure (by constructor <;> assumption)

theorem multiPatblt_persists (old : MultiPatbltOrder) :
    Ensures (updateReadMultiPatbltOrder info old) fun new =>
      new.brush.Settled ∧ (old.brush.Settled → old.Persists info.fieldFlags new) := by
  iterate 7 (apply field_kept.bind; intro _ _)
  apply (readBrush_ensures info 7 old.brush).bind
  rintro brush ⟨settled, persists⟩
  apply field_kept.bind
  intro numRectangles number
  apply field_kept.bind
  intro rects data
  apply Ensures.skip
  intro _
  refine .pure ⟨settled, fun settledBefore => ?_⟩
  have keptBrush := persists settledBefore
  have keptRects : old.toOrderRects.Persists info.fieldFlags 13 14 { rects with numRectangles } :=
    ⟨number, data.map OrderRects.cbData, data.map OrderRects.rectangles⟩
  constructor <;> assumption

theorem multiScrblt_persists (pre : MultiScrbltOrder) :
    Ensures (updateReadMultiScrbltOrder info pre) (pre.Persists info.fieldFlags) := by
  iterate 7 (apply field_kept.bind; intro _ _)
  apply field_kept.bind
  intro _ number
  apply (readOrderRects_persists info 9 number).bind
  intro _ _
  exact .pure (by constructor <;> assumption)

theorem multiOpaqueRect_persists (pre : MultiOpaqueRectOrder) :
    Ensures (updateReadMultiOpaqueRectOrder info pre) (pre.Persists info.fieldFlags) := by
  iterate 4 (apply field_kept.bind; intro _ _)
  apply (readOrderColorBytes_ensures info pre.color).bind
  intro _ _
  apply field_kept.bind
  intro _ number
  apply (readOrderRects_persists info 9 number).bind
  intro _ _
  exact .pure (by constructor <;> assumption)

theorem multiDrawNineGrid_persists (pre : MultiDrawNineGridOrder) :
    Ensures (updateReadMultiDrawNineGridOrder info pre) (pre.Persists info.fieldFlags) := by
  iterate 5 (apply field_kept.bind; intro _ _)
  apply field_kept.bind
  intro _ number
  apply (readOrderRects_persists info 7 number).bind
  intro _ _
  exact .pure (by constructor <;> assumption)

theorem lineTo_persists (pre : LineToOrder) :
    Ensures (updateReadLineToOrder info pre) (pre.Persists info.fieldFlags) := by
  iterate 10 (apply field_kept.bind; intro _ _)
  exact .pure (by constructor <;> assumption)

theorem polyline_persists (pre : PolylineOrder) :
    Ensures (updateReadPolylineOrder info pre) (pre.Persists info.fieldFlags) := by
  iterate 5 (apply field_kept.bind; intro _ _)
  apply field_kept.bind
  intro _ number
  apply (readOrderPoints_persists info 7 _ _ number).bind
  intro _ _
  exact .pure (by constructor <;> assumption)

theorem saveBitmap_persists (pre : SaveBitmapOrder) :
    Ensures (updateReadSaveBitmapOrder info pre) (pre.Persists info.fieldFlags) := by
  iterate 6 (apply field_kept.bind; intro _ _)
  exact .pure (by constructor <;> assumption)

theorem glyphIndex_persists (pre : GlyphIndexOrder) :
    Ensures (updateReadGlyphIndexOrder info pre) fun new =>
      new.brush.Settled ∧ (pre.brush.Settled → pre.Persists info.fieldFlags new) := by
  iterate 14 (apply field_kept.bind; intro _ _)
  apply (readBrush_ensures info 14 pre.brush).bind
  rintro brush ⟨done, persists⟩
  iterate 3 (apply field_kept.bind; intro _ _)
  refine .pure ⟨done, fun donePre => ?_⟩
  have keptBrush := persists donePre
  constructor <;> assumption

theorem fastIndex_persists (pre : FastIndexOrder) :
    Ensures (updateReadFastIndexOrder info pre) (pre.Persists info.fieldFlags) := by
  iterate 15 (apply field_kept.bind; intro _ _)
  exact .pure (by constructor <;> assumption)

theorem fastGlyph_persists (pre : FastGlyphOrder) :
    Ensures (updateReadFastGlyphOrder info pre) (pre.Persists info.fieldFlags) := by
  apply field_kept.bind
  intro _ _
  apply Ensures.skip
  intro _
  iterate 14 (apply field_kept.bind; intro _ _)
  exact .pure (by constructor <;> assumption)

theorem polygonSc_persists (pre : PolygonScOrder) :
    Ensures (updateReadPolygonScOrder info pre) (pre.Persists info.fieldFlags) := by
  iterate 5 (apply field_kept.bind; intro _ _)
  apply field_kept.bind
  intro _ number
  apply (readOrderPoints_persists info 7 _ _ number).bind
  intro _ _
  exact .pure (by constructor <;> assumption)

theorem ellipseSc_persists (pre : EllipseScOrder) :
    Ensures (updateReadEllipseScOrder info pre) (pre.Persists info.fieldFlags) := by
  iterate 7 (apply field_kept.bind; intro _ _)
  exact .pure (by constructor <;> assumption)

theorem ellipseCb_persists (pre : EllipseCbOrder) :
    Ensures (updateReadEllipseCbOrder info pre) fun new =>
      new.brush.Settled ∧ (pre.brush.Settled → pre.Persists info.fieldFlags new) := by
  iterate 8 (apply field_kept.bind; intro _ _)
  apply (readBrush_ensures info 8 pre.brush).bind
  rintro brush ⟨done, persists⟩
  refine .pure ⟨done, fun donePre => ?_⟩
  have keptBrush := persists donePre
  constructor <;> assumption

/-! ## Orders with a packed field -/

theorem packed_again {cacheId : Nat} (low : cacheId ≤ 0xFF) :
    cacheId &&& 0xFF = cacheId ∧ cacheId >>> 8 = 0 := by
  constructor
  · rw [show (0xFF : Nat) = 2 ^ 8 - 1 from rfl, and_two_pow_sub_one_eq_mod, mod_eq_of_lt (by omega)]
  · rw [shiftRight_eq_div_pow, div_eq_of_lt (by omega)]

theorem and_ff_le (cacheId : Nat) : cacheId &&& 0xFF ≤ 0xFF := and_le_right

theorem packed_kept {idPre indexBefore cacheId : Nat} (low : idPre ≤ 0xFF)
    (packed : Kept fieldFlags [1] idPre cacheId) : Kept fieldFlags [1] idPre (cacheId &&& 0xFF) ∧
      (Kept fieldFlags [1] indexBefore (cacheId >>> 8) ↔
        (orderFieldFlagIsSet fieldFlags 1 = false → indexBefore = 0)) := by
  obtain ⟨lowAgain, highAgain⟩ := packed_again low
  refine ⟨fun absent => by rw [packed absent, lowAgain], ?_, ?_⟩
  · intro kept absent
    have all : ∀ number ∈ [1], orderFieldFlagIsSet fieldFlags number = false := by simpa using absent
    have colIdx : cacheId >>> 8 = indexBefore := kept all
    rwa [packed all, highAgain, eq_comm] at colIdx
  intro zero absent
  rw [packed absent, highAgain, zero (absent 1 mem_cons_self)]

theorem memblt_persists (pre : MembltOrder) : Ensures (updateReadMembltOrder info pre) fun new =>
      new.cacheId ≤ 0xFF ∧ (pre.cacheId ≤ 0xFF → (pre.Persists info.fieldFlags new ↔
          (orderFieldFlagIsSet info.fieldFlags 1 = false → pre.colorIndex = 0))) := by
  apply field_kept.bind
  intro cacheId packed
  iterate 8 (apply field_kept.bind; intro _ _)
  refine .pure ⟨and_ff_le cacheId, fun low => ?_⟩
  obtain ⟨_, idx⟩ := @packed_kept _ _ pre.colorIndex _ low packed
  constructor
  · intro persists
    exact idx.mp persists.colorIndex
  intro zero
  have keptIdx := idx.mpr zero
  constructor <;> assumption

theorem mem3blt_persists (pre : Mem3bltOrder) : Ensures (updateReadMem3bltOrder info pre) fun new =>
      (new.cacheId ≤ 0xFF ∧ new.brush.Settled) ∧ (pre.cacheId ≤ 0xFF ∧ pre.brush.Settled →
        (pre.Persists info.fieldFlags new ↔
          (orderFieldFlagIsSet info.fieldFlags 1 = false → pre.colorIndex = 0))) := by
  apply field_kept.bind
  intro cacheId packed
  iterate 9 (apply field_kept.bind; intro _ _)
  apply (readBrush_ensures info 10 pre.brush).bind
  rintro brush ⟨done, persists⟩
  apply field_kept.bind
  intro _ _
  refine .pure ⟨⟨and_ff_le cacheId, done⟩, fun ⟨low, donePre⟩ => ?_⟩
  obtain ⟨_, idx⟩ := @packed_kept _ _ pre.colorIndex _ low packed
  constructor
  · intro persists
    exact idx.mp persists.colorIndex
  intro zero
  have keptBrush := persists donePre
  have keptIdx := idx.mpr zero
  constructor <;> assumption

theorem rop_again {bRop2 : Nat} (low : bRop2 ≤ 0x1F) : bRop2 &&& 0x1F = bRop2 ∧ ¬bRop2 &&& 0x80 ≠ 0 := by
  constructor
  · rw [show (0x1F : Nat) = 2 ^ 5 - 1 from rfl, and_two_pow_sub_one_eq_mod, mod_eq_of_lt (by omega)]
  rw [show (0x80 : Nat) = 2 ^ 7 from rfl, and_two_pow,
    testBit_lt_two_pow (lt_of_le_of_lt low (by decide))]
  simp

/-- A back mode that is not sent is only kept where it is opaque. -/
theorem polygonCb_persists (pre : PolygonCbOrder) :
    Ensures (updateReadPolygonCbOrder info pre) fun new =>
      (new.bRop2 ≤ 0x1F ∧ new.brush.Settled) ∧ (pre.bRop2 ≤ 0x1F ∧ pre.brush.Settled →
        (pre.Persists info.fieldFlags new ↔
          (orderFieldFlagIsSet info.fieldFlags 3 = false → pre.backMode = BACKMODE_OPAQUE))) := by
  iterate 2 (apply field_kept.bind; intro _ _)
  apply field_kept.bind
  intro bRop2 packed
  iterate 3 (apply field_kept.bind; intro _ _)
  apply (readBrush_ensures info 6 pre.brush).bind
  rintro brush ⟨done, persists⟩
  apply field_kept.bind
  intro num number
  apply field_kept.bind
  intro points data
  apply Ensures.skip
  intro _
  refine .pure ⟨⟨and_le_right, done⟩, fun ⟨low, donePre⟩ => ?_⟩
  obtain ⟨lowAgain, highAgain⟩ := rop_again low
  constructor
  · intro persists absent
    have all : ∀ number ∈ [3], orderFieldFlagIsSet info.fieldFlags number = false :=
      by simpa using absent
    have backMode :
        (if bRop2 &&& 0x80 ≠ 0 then BACKMODE_TRANSPARENT else BACKMODE_OPAQUE) = pre.backMode :=
      persists.backMode all
    rwa [packed all, if_neg highAgain, eq_comm] at backMode
  intro solid
  have keptBrush := persists donePre
  have keptPoints : pre.toOrderPoints.Persists info.fieldFlags 12 13 { points with numPoints := num } :=
    ⟨number, data.map OrderPoints.cbData, data.map OrderPoints.points⟩
  have keptRop : Kept info.fieldFlags [3] pre.bRop2 (bRop2 &&& 0x1F) := by
    intro absent
    rw [packed absent, lowAgain]
  have keptMode : Kept info.fieldFlags [3] pre.backMode
      (if bRop2 &&& 0x80 ≠ 0 then BACKMODE_TRANSPARENT else BACKMODE_OPAQUE) := by
    intro absent
    rw [packed absent, if_neg highAgain, solid (absent 3 mem_cons_self)]
  constructor <;> assumption

end Orders

/-! ## Sequences of orders of one type -/

/-- What the reader leaves behind of a type: packed fields are unpacked and brushes are settled. -/
def PrimaryOrders.Settled (orders : PrimaryOrders) : PrimaryOrderType → Prop
  | .patblt => orders.patblt.brush.Settled
  | .memblt => orders.memblt.cacheId ≤ 0xFF
  | .mem3blt => orders.mem3blt.cacheId ≤ 0xFF ∧ orders.mem3blt.brush.Settled
  | .multiPatblt => orders.multiPatblt.brush.Settled
  | .polygonCb => orders.polygonCb.bRop2 ≤ 0x1F ∧ orders.polygonCb.brush.Settled
  | .ellipseCb => orders.ellipseCb.brush.Settled
  | .glyphIndex => orders.glyphIndex.brush.Settled
  | _ => True

/-- Where the packed field does not come, what was split off it already is what is split off the rest. -/
def PrimaryOrders.PackedStays (fieldFlags : Nat) (orders : PrimaryOrders) : PrimaryOrderType → Prop
  | .memblt => orderFieldFlagIsSet fieldFlags 1 = false → orders.memblt.colorIndex = 0
  | .mem3blt => orderFieldFlagIsSet fieldFlags 1 = false → orders.mem3blt.colorIndex = 0
  | .polygonCb => orderFieldFlagIsSet fieldFlags 3 = false → orders.polygonCb.backMode = BACKMODE_OPAQUE
  | _ => True

/-- An order keeps the fields that are not sent exactly when its packed fields stay. -/
theorem readOrderOfType_persists (info : OrderInfo) (pre : PrimaryOrders) (type : PrimaryOrderType) :
    Ensures (readOrderOfType info pre type) fun new => new.Settled type ∧ (pre.Settled type →
        (pre.Persists info.fieldFlags new type ↔ pre.PackedStays info.fieldFlags type)) := by
  have always {Settled Pers : Prop} (h : Pers) : True ∧ (Settled → (Pers ↔ True)) :=
    ⟨trivial, fun _ => iff_of_true h trivial⟩
  have done {After Pre Pers : Prop} (h : After ∧ (Pre → Pers)) :
      After ∧ (Pre → (Pers ↔ True)) := ⟨h.1, fun pre => iff_of_true (h.2 pre) trivial⟩
  cases type with
  | dstblt => exact (dstblt_persists info pre.dstblt).bind fun _ h => .pure (always h)
  | patblt => exact (patblt_persists info pre.patblt).bind fun _ h => .pure (done h)
  | scrblt => exact (scrblt_persists info pre.scrblt).bind fun _ h => .pure (always h)
  | drawNineGrid =>
    exact (drawNineGrid_persists info pre.drawNineGrid).bind fun _ h => .pure (always h)
  | multiDrawNineGrid =>
    exact (multiDrawNineGrid_persists info pre.multiDrawNineGrid).bind fun _ h => .pure (always h)
  | lineTo => exact (lineTo_persists info pre.lineTo).bind fun _ h => .pure (always h)
  | opaqueRect => exact (opaqueRect_persists info pre.opaqueRect).bind fun _ h => .pure (always h)
  | saveBitmap => exact (saveBitmap_persists info pre.saveBitmap).bind fun _ h => .pure (always h)
  | memblt => exact (memblt_persists info pre.memblt).bind fun _ h => .pure h
  | mem3blt => exact (mem3blt_persists info pre.mem3blt).bind fun _ h => .pure h
  | multiDstblt => exact (multiDstblt_persists info pre.multiDstblt).bind fun _ h => .pure (always h)
  | multiPatblt => exact (multiPatblt_persists info pre.multiPatblt).bind fun _ h => .pure (done h)
  | multiScrblt => exact (multiScrblt_persists info pre.multiScrblt).bind fun _ h => .pure (always h)
  | multiOpaqueRect =>
    exact (multiOpaqueRect_persists info pre.multiOpaqueRect).bind fun _ h => .pure (always h)
  | fastIndex => exact (fastIndex_persists info pre.fastIndex).bind fun _ h => .pure (always h)
  | polygonSc => exact (polygonSc_persists info pre.polygonSc).bind fun _ h => .pure (always h)
  | polygonCb => exact (polygonCb_persists info pre.polygonCb).bind fun _ h => .pure h
  | polyline => exact (polyline_persists info pre.polyline).bind fun _ h => .pure (always h)
  | fastGlyph => exact (fastGlyph_persists info pre.fastGlyph).bind fun _ h => .pure (always h)
  | ellipseSc => exact (ellipseSc_persists info pre.ellipseSc).bind fun _ h => .pure (always h)
  | ellipseCb => exact (ellipseCb_persists info pre.ellipseCb).bind fun _ h => .pure (done h)
  | glyphIndex => exact (glyphIndex_persists info pre.glyphIndex).bind fun _ h => .pure (done h)

structure OrderInput where
  fieldFlags : Nat
  deltaCoordinates : Bool
  bytes : List UInt8

def OrderInput.info (input : OrderInput) (type : PrimaryOrderType) : OrderInfo :=
  { orderType := type.code, fieldFlags := input.fieldFlags, deltaCoordinates := input.deltaCoordinates }

structure DecodedOrder where
  fieldFlags : Nat
  (before after : PrimaryOrders)

def readPrimaryOrders (type : PrimaryOrderType) :
    PrimaryOrders → List OrderInput → Except Stop (List DecodedOrder)
  | _, [] => .ok []
  | old, input :: inputs => do
    let (new, _) ← (readPrimaryOrder (input.info type) old).run input.bytes
    let later ← readPrimaryOrders type new inputs
    return ⟨input.fieldFlags, old, new⟩ :: later

theorem readPrimaryOrder_persists (type : PrimaryOrderType) (inp : OrderInput) (pre : PrimaryOrders) :
    Ensures (readPrimaryOrder (inp.info type) pre) fun new => new.Settled type ∧ (pre.Settled type →
        (pre.Persists inp.fieldFlags new type ↔ pre.PackedStays inp.fieldFlags type)) := by
  have step := readOrderOfType_persists (inp.info type) pre type
  rw [readPrimaryOrder,
    show PrimaryOrderType.ofCode (inp.info type).orderType = some type from type.ofCode_code]
  exact step

theorem readPrimaryOrders_cons {pre : PrimaryOrders} {inp : OrderInput}
    (run : readPrimaryOrders type pre (inp :: inputs) = .ok decoded) :
    ∃ new rest later, (readPrimaryOrder (inp.info type) pre).run inp.bytes = .ok (new, rest) ∧
      readPrimaryOrders type new inputs = .ok later ∧ decoded = ⟨inp.fieldFlags, pre, new⟩ :: later := by
  obtain ⟨⟨new, rest⟩, read, run⟩ := bind_eq_ok.mp run
  obtain ⟨later, runLater, res⟩ := bind_eq_ok.mp run
  cases res
  exact ⟨new, rest, later, read, runLater, rfl⟩

theorem readPrimaryOrders_persists {st : PrimaryOrders} (done : st.Settled type)
    (run : readPrimaryOrders type st inputs = .ok decoded) :
    (∀ order ∈ decoded, order.before.Persists order.fieldFlags order.after type) ↔
      ∀ order ∈ decoded, order.before.PackedStays order.fieldFlags type := by
  -- by induction over the orders: each one leaves its type settled for the next one
  induction inputs generalizing st decoded with
  | nil =>
    cases run
    simp
  | cons inp inputs ih =>
    obtain ⟨new, _, _, read, runLater, rfl⟩ := readPrimaryOrders_cons run
    obtain ⟨doneAfter, sharp⟩ := (readPrimaryOrder_persists type inp st).holds _ _ _ read
    rw [forall_mem_cons, forall_mem_cons, ih doneAfter runLater, sharp done]

/-- Fields persist exactly if, wherever the packed field of a `memblt` or `mem3blt` does not come,
the colour index is zero, and wherever that of a `polygon_cb` does not come, the background is
opaque. -/
theorem primary_order_persistence_iff (type : PrimaryOrderType) (start : PrimaryOrders)
    (inputs : List OrderInput)
    (decoded : List DecodedOrder) (run : readPrimaryOrders type start inputs = .ok decoded) :
    (∀ order ∈ decoded.tail, order.before.Persists order.fieldFlags order.after type) ↔
      ∀ order ∈ decoded.tail, order.before.PackedStays order.fieldFlags type := by
  cases inputs with
  | nil =>
    cases run
    simp
  | cons inp inputs =>
    -- the first order settles its type, whatever was there before
    obtain ⟨new, _, _, read, runLater, rfl⟩ := readPrimaryOrders_cons run
    have done := ((readPrimaryOrder_persists type inp start).holds _ _ _ read).1
    exact readPrimaryOrders_persists done runLater

/-- A `memblt` with colour index 3, then one without any field; a transparent `polygon_cb`, then
one without any field. -/
theorem primary_order_not_persistent :
    (∃ decoded, readPrimaryOrders .memblt {} [⟨1, false, [0x05, 0x03]⟩, ⟨0, false, []⟩] = .ok decoded ∧
      ¬∀ order ∈ decoded.tail, order.before.Persists order.fieldFlags order.after .memblt) ∧
    ∃ decoded, readPrimaryOrders .polygonCb {} [⟨4, false, [0x8D]⟩, ⟨0, false, []⟩] = .ok decoded ∧
      ¬∀ order ∈ decoded.tail, order.before.Persists order.fieldFlags order.after .polygonCb := by
  constructor
  · refine ⟨_, rfl, fun persists => ?_⟩
    have colIdx := (persists _ List.mem_cons_self).colorIndex (by decide)
    exact absurd colIdx (by decide)
  refine ⟨_, rfl, fun persists => ?_⟩
  have backMode := (persists _ List.mem_cons_self).backMode (by decide)
  exact absurd backMode (by decide)

/-- A `memblt` with colour index 0, then one that only moves. -/
theorem primary_order_persistence_iff_moved :
    ∃ decoded, readPrimaryOrders .memblt {}
    [⟨1, false, [0x05, 0x00]⟩, ⟨2, false, [0x07, 0x00]⟩] = .ok decoded ∧
      ∀ order ∈ decoded.tail, order.before.Persists order.fieldFlags order.after .memblt := by
  refine ⟨_, rfl,
    (primary_order_persistence_iff .memblt {} [⟨1, false, [0x05, 0x00]⟩, ⟨2, false, [0x07, 0x00]⟩] _
    rfl).mpr ?_⟩
  intro order mem
  cases List.mem_singleton.mp mem
  exact fun _ => rfl

end KvmServer.Core
