import KvmServer.Lib.Bytes

/-! # Glyph orders (`cache/glyph.c`)

The text of a glyph order is a small program: a byte draws a glyph of the cache,
`GLYPH_FRAGMENT_ADD` keeps the front of the text as a fragment, and `GLYPH_FRAGMENT_USE` runs one.
Every access and every checked cast is guarded.  `index` is the list of the bytes from it to the
end of the text. -/

namespace KvmServer.Cache
open Lib

def GLYPH_FRAGMENT_USE : UInt8 := 0xFE
def GLYPH_FRAGMENT_ADD : UInt8 := 0xFF
def SO_HORIZONTAL : UInt8 := 0x02
def SO_VERTICAL : UInt8 := 0x04
def SO_CHAR_INC_EQUAL_BM_BASE : UInt8 := 0x20

inductive GlyphFault where
  /-- A byte after the end of the text or of the fragment is looked at. -/
  | outside
  /-- A cache entry after the last one is looked at. -/
  | entry
  /-- A checked cast fails. -/
  | cast
  /-- A number is printed as the string at that address. -/
  | format
deriving DecidableEq

/-- Whether copying bytes, and a warning that takes a number for a string, count as looking at bytes. -/
structure GlyphRules where
  (copies formats : Bool)

/-- `WINPR_ASSERTING_INT_CAST` to a signed type of `bits` bits. -/
def castSigned (bits : Nat) (x : Int) : Except GlyphFault Int :=
  if -2 ^ (bits - 1) ≤ x ∧ x < 2 ^ (bits - 1) then .ok x else .error .cast

/-! ## The cache -/

structure RdpGlyph where
  (x y : Int)
  (cx cy : UInt16)
deriving DecidableEq

def glyphCacheCount : Nat := 10

structure GlyphCache where
  number : Nat → Nat
  entries : Nat → Nat → Option RdpGlyph
  fragments : UInt8 → Option (List UInt8)

def glyphCacheNew (number : Nat → Nat) : GlyphCache := ⟨number, fun _ _ => none, fun _ => none⟩

def glyphCacheGet (cache : GlyphCache) (id index : Nat) : Except GlyphFault (Option RdpGlyph) :=
  if id ≥ glyphCacheCount then .ok none
  else if index > cache.number id then .ok none
  else if index < cache.number id then .ok (cache.entries id index)
  else .error .entry

def glyphCachePut (cache : GlyphCache) (id index : Nat) (glyph : RdpGlyph) : Option GlyphCache :=
  if id ≥ glyphCacheCount then none
  else if index ≥ cache.number id then none
  else
    some { cache with entries := fun i j => if i = id ∧
      j = index then some glyph else cache.entries i j }

/-! ## Texts -/

structure GlyphArea where
  (x y width height : Int)

/-- The parameters of `update_process_glyph_fragments`: the first `length` bytes of `data` are the
text. -/
structure GlyphText where
  data : List UInt8
  (length cacheId : Nat)
  (ulCharInc flAccel : UInt8)
  (bgcolor fgcolor : Nat)
  (x y : Int)
  (bk op : GlyphArea)
  fOpRedundant : Int

/-- Only without an increment is a glyph followed by its offset. -/
def GlyphText.hasOffsets (text : GlyphText) : Bool :=
  text.ulCharInc = 0 ∧ text.flAccel &&& SO_CHAR_INC_EQUAL_BM_BASE = 0

variable (rules : GlyphRules)

/-- The size of the copy that `glyph_cache_fragment_put` may make. -/
def GlyphText.copyLimit (text : GlyphText) : Nat :=
  if rules.copies then text.length else text.data.length

/-- `glyph_cache_fragment_put`, when memory is available.  It always copies the front of the data. -/
def glyphCacheFragmentPut (text : GlyphText) (cache : GlyphCache) (index size : UInt8) :
    Except GlyphFault GlyphCache :=
  if size = 0 then .ok cache
  else if size.toNat ≤ text.copyLimit rules then
    .ok
      { cache with
        fragments := fun i => if i = index then some (text.data.take size.toNat) else cache.fragments i }
  else .error .outside

/-! ## What the client draws -/

structure GlyphDraw where
  glyph : RdpGlyph
  (dx dy dw dh sx sy fOpRedundant : Int)

/-- The callbacks for one order; a glyph that is made or drawn comes with the number of those before
it. -/
structure GlyphCallbacks where
  new : Nat → RdpGlyph → Bool
  beginDraw : GlyphArea → Nat → Nat → Int → Bool
  setBounds : GlyphArea → Bool
  draw : Nat → GlyphDraw → Bool
  endDraw : GlyphArea → Nat → Nat → Bool

structure GlyphPen where
  (x y : Int)
  drawn : Nat

def movePen (text : GlyphText) (offset : Nat) (pen : GlyphPen) : Except GlyphFault GlyphPen := do
  let offset ← castSigned 32 offset
  .ok
    { pen with
      x := if text.flAccel &&& SO_HORIZONTAL ≠ 0 then pen.x + offset else pen.x
      y := if text.flAccel &&& SO_VERTICAL ≠ 0 then pen.y + offset else pen.y }

def updateGlyphOffset (text : GlyphText) (bytes : List UInt8) (pen : GlyphPen) :
    Except GlyphFault (List UInt8 × GlyphPen) :=
  if text.hasOffsets then
    match bytes with
    | [] => .error .outside
    | offset :: bytes =>
      if offset &&& 0x80 ≠ 0 then
        match bytes with
        | low :: high :: bytes => do
          let pen ← movePen text (low.toNat ||| high.toNat <<< 8) pen
          .ok (bytes, pen)
        | _ =>
          -- the warning's format starts with `[%s]`, and its first argument is `index`
          if rules.formats then .error .format
          else do
            let pen ← movePen text offset.toNat pen
            .ok (bytes, pen)
      else do
        let pen ← movePen text offset.toNat pen
        .ok (bytes, pen)
  else .ok (bytes, pen)

/-- The part of a glyph that is inside of `bound`, along one axis: where it goes, how much of it,
and what is left out. -/
def clipGlyph (start size boundStart boundSize : Int) : Int × Int × Int :=
  let skipped := if start < boundStart then boundStart - start else 0
  let start := if start < boundStart then boundStart else start
  let size := size - skipped
  (start, if size + start > boundStart + boundSize then boundStart + boundSize - (size + start)
    else size, skipped)

variable (callbacks : GlyphCallbacks)

/-- Nothing is returned for `FALSE`. -/
def updateProcessGlyph (text : GlyphText) (bound : GlyphArea) (cache : GlyphCache)
    (cacheIndex : Nat) (pen : GlyphPen) : Except GlyphFault (Option GlyphPen) := do
  match ← glyphCacheGet cache text.cacheId cacheIndex with
  | none => .ok none
  | some glyph =>
    let cx ← castSigned 32 glyph.cx.toNat
    let cy ← castSigned 32 glyph.cy.toNat
    let (dx, dw, sx) := clipGlyph (glyph.x + pen.x) cx bound.x bound.width
    let (dy, dh, sy) := clipGlyph (glyph.y + pen.y) cy bound.y bound.height
    let visible := dx ≤ bound.x + bound.width ∧ dy ≤ bound.y + bound.height ∧ dh > 0 ∧ dw > 0
    if visible ∧
      ¬callbacks.draw pen.drawn ⟨glyph, dx, dy, dw, dh, sx, sy, text.fOpRedundant⟩ then .ok none
    else
      .ok (some
        { x := if text.flAccel &&& SO_CHAR_INC_EQUAL_BM_BASE ≠ 0 then pen.x + cx else pen.x
          y := pen.y
          drawn := if visible then pen.drawn + 1 else pen.drawn })

/-! ## Fragments and texts -/

/-- The loop over a fragment; every round takes a byte of it, so its size bounds the rounds. -/
def glyphFragmentLoop (rules : GlyphRules) (callbacks : GlyphCallbacks)
    (text : GlyphText) (bound : GlyphArea)
    (cache : GlyphCache) : Nat → List UInt8 → GlyphPen → Except GlyphFault (Option GlyphPen)
  | _, [], pen => .ok (some pen)
  | 0, _ :: _, _ => .error .outside
  | fuel + 1, fop :: bytes, pen => do
    let (bytes, pen) ← updateGlyphOffset rules text bytes pen
    match ← updateProcessGlyph callbacks text bound cache fop.toNat pen with
    | none => .ok none
    | some pen => glyphFragmentLoop rules callbacks text bound cache fuel bytes pen

def glyphTextLoop (rules : GlyphRules) (callbacks : GlyphCallbacks) (text : GlyphText)
    (bound : GlyphArea) :
    Nat → GlyphCache → List UInt8 → GlyphPen → Except GlyphFault (Bool × GlyphCache)
  | _, cache, [], _ => .ok (true, cache)
  | 0, _, _ :: _, _ => .error .outside
  | fuel + 1, cache, op :: bytes, pen =>
    if op = GLYPH_FRAGMENT_USE then
      match bytes with
      | [] => .ok (false, cache)
      | id :: bytes =>
        match cache.fragments id with
        | none => .ok (false, cache)
        | some fragment => do
          match ← glyphFragmentLoop rules callbacks text bound cache fragment.length fragment pen with
          | none => .ok (false, cache)
          | some pen => glyphTextLoop rules callbacks text bound fuel cache bytes pen
    else if op = GLYPH_FRAGMENT_ADD then
      match bytes with
      | id :: size :: bytes => do
        let cache ← glyphCacheFragmentPut rules text cache id size
        glyphTextLoop rules callbacks text bound fuel cache bytes pen
      | _ => .ok (false, cache)
    else do
      let (bytes, pen) ← updateGlyphOffset rules text bytes pen
      match ← updateProcessGlyph callbacks text bound cache op.toNat pen with
      | none => .ok (false, cache)
      | some pen => glyphTextLoop rules callbacks text bound fuel cache bytes pen

def limitStart (start : Int) : Int := if start < 0 then 0 else start

def limitSize (start size : Int) : Int :=
  let size := if start < 0 then size + start else size
  if size < 0 then 0 else size

variable (width : Nat)

def limitWidth (start size : Int) : Except GlyphFault Int :=
  if start + size > width then do
    let width ← castSigned 32 width
    .ok (width - start)
  else .ok size

def limitArea (area : GlyphArea) : Except GlyphFault GlyphArea := do
  let x := limitStart area.x
  let size ← limitWidth width x (limitSize area.x area.width)
  .ok ⟨x, limitStart area.y, size, limitSize area.y area.height⟩

def updateProcessGlyphFragments (text : GlyphText) (cache : GlyphCache) :
    Except GlyphFault (Bool × GlyphCache) := do
  let op ← limitArea width text.op
  let bk ← limitArea width text.bk
  let x ← castSigned 16 bk.x
  let y ← castSigned 16 bk.y
  let w ← castSigned 16 bk.width
  let h ← castSigned 16 bk.height
  if ¬callbacks.beginDraw op text.bgcolor text.fgcolor text.fOpRedundant then .ok (false, cache)
  else if ¬callbacks.setBounds bk then .ok (false, cache)
  else do
    let (rc, cache) ← glyphTextLoop rules callbacks text ⟨x, y, w, h⟩ text.length cache
      (text.data.take text.length)
      ⟨text.x, text.y, 0⟩
    .ok (rc && callbacks.endDraw op text.bgcolor text.fgcolor, cache)

/-! ## Orders -/

structure GlyphEdges where
  (left top right bottom : Int)

def edgeSize (low high : Int) : Int := if high > low then high - low + 1 else 0

def GlyphEdges.area (edges : GlyphEdges) : GlyphArea :=
  ⟨edges.left, edges.top, edgeSize edges.left edges.right, edgeSize edges.top edges.bottom⟩

/-- The fields that `GLYPH_INDEX_ORDER` and `FAST_INDEX_ORDER` share.  The order parser puts at
most 255 bytes into an array of 256 and leaves those of earlier orders after them. -/
structure GlyphIndexOrder where
  (cacheId flAccel ulCharInc : UInt8)
  (backColor foreColor : Nat)
  (bk op : GlyphEdges)
  (x y : Int)
  cbData : UInt8
  data : List UInt8
  array : data.length = 256

variable (order : GlyphIndexOrder)

def GlyphIndexOrder.text (x y : Int) (op : GlyphEdges) (fOpRedundant : Int) : GlyphText where
  data := order.data
  length := order.cbData.toNat
  cacheId := order.cacheId.toNat
  ulCharInc := order.ulCharInc
  flAccel := order.flAccel
  bgcolor := order.backColor
  fgcolor := order.foreColor
  x := x
  y := y
  bk := order.bk.area
  op := op.area
  fOpRedundant := fOpRedundant

def glyphIndexText (fOpRedundant : UInt8) : GlyphText :=
  order.text order.x order.y order.op fOpRedundant.toNat

def updateGdiGlyphIndex (fOpRedundant : UInt8) (cache : GlyphCache) :
    Except GlyphFault (Bool × GlyphCache) := do
  let redundant ← castSigned 32 fOpRedundant.toNat
  updateProcessGlyphFragments rules callbacks width (order.text order.x order.y order.op redundant) cache

/-- What `update_gdi_fast_index` and `update_gdi_fast_glyph` make of the edges of the opaque
rectangle. -/
def fastOp (bk op : GlyphEdges) : GlyphEdges :=
  let flags := if op.bottom = -32768 then (op.top % 16).toNat else 0
  let bottom := if flags.testBit 0 then bk.bottom else op.bottom
  let right := if flags.testBit 1 then bk.right else op.right
  let top := if flags.testBit 2 then bk.top else op.top
  let left := if flags.testBit 3 then bk.left else op.left
  let left := if left = 0 then bk.left else left
  let right := if right = 0 then bk.right else right
  ⟨left, top, if right > width then width else right, bottom⟩

def fastPosition (position edge : Int) : Int := if position = -32768 then edge else position

def fastIndexText : GlyphText :=
  order.text (fastPosition order.x order.bk.left) (fastPosition order.y order.bk.top)
    (fastOp width order.bk order.op) 0

def updateGdiFastIndex (cache : GlyphCache) : Except GlyphFault (Bool × GlyphCache) :=
  updateProcessGlyphFragments rules callbacks width (fastIndexText width order) cache

/-- The byte of the glyph, and the glyph itself if the order brings it (`cbData` is greater than one
and `glyphData.aj` is there). -/
structure FastGlyphOrder where
  cacheId : Nat
  (flAccel ulCharInc : UInt8)
  (backColor foreColor : Nat)
  (bk op : GlyphEdges)
  (x y : Int)
  index : UInt8
  glyphData : Option RdpGlyph

def fastGlyphText (order : FastGlyphOrder) : GlyphText where
  data := [order.index, 0, 0, 0]
  length := 4
  cacheId := order.cacheId
  ulCharInc := order.ulCharInc
  flAccel := order.flAccel
  bgcolor := order.backColor
  fgcolor := order.foreColor
  x := fastPosition order.x order.bk.left
  y := fastPosition order.y order.bk.top
  bk := order.bk.area
  op := (fastOp width order.bk order.op).area
  fOpRedundant := 0

def updateGdiFastGlyph (order : FastGlyphOrder) (cache : GlyphCache) :
    Except GlyphFault (Bool × GlyphCache) :=
  match order.glyphData with
  | none => updateProcessGlyphFragments rules callbacks width (fastGlyphText width order) cache
  | some glyph =>
    if ¬callbacks.new 0 glyph then .ok (false, cache)
    else
      match glyphCachePut cache order.cacheId order.index.toNat glyph with
      | none => .ok (false, cache)
      | some cache => updateProcessGlyphFragments rules callbacks width (fastGlyphText width order) cache

/-- `update_gdi_cache_glyph` and `update_gdi_cache_glyph_v2`, with the entry that each glyph goes to. -/
def updateGdiCacheGlyph (callbacks : GlyphCallbacks) (cacheId : Nat) :
    Nat → List (Nat × RdpGlyph) → GlyphCache → Bool × GlyphCache
  | _, [], cache => (true, cache)
  | i, (cacheIndex, glyph) :: glyphs, cache =>
    if ¬callbacks.new i glyph then (false, cache)
    else
      match glyphCachePut cache cacheId cacheIndex glyph with
      | none => (false, cache)
      | some cache => updateGdiCacheGlyph callbacks cacheId (i + 1) glyphs cache

inductive GlyphOrder where
  | cacheGlyph (cacheId : Nat) (glyphs : List (Nat × RdpGlyph))
  | glyphIndex (order : GlyphIndexOrder) (fOpRedundant : UInt8)
  | fastIndex (order : GlyphIndexOrder)
  | fastGlyph (order : FastGlyphOrder)

def processGlyphOrder (callbacks : GlyphCallbacks) (cache : GlyphCache) :
    GlyphOrder → Except GlyphFault (Bool × GlyphCache)
  | .cacheGlyph cacheId glyphs => .ok (updateGdiCacheGlyph callbacks cacheId 0 glyphs cache)
  | .glyphIndex order fOpRedundant => updateGdiGlyphIndex rules callbacks width order fOpRedundant cache
  | .fastIndex order => updateGdiFastIndex rules callbacks width order cache
  | .fastGlyph order => updateGdiFastGlyph rules callbacks width order cache

def processGlyphOrders (rules : GlyphRules) (width : Nat) :
    (Nat → GlyphCallbacks) → GlyphCache → List GlyphOrder → Except GlyphFault (Bool × GlyphCache)
  | _, cache, [] => .ok (true, cache)
  | callbacks, cache, order :: orders => do
    let (rc, cache) ← processGlyphOrder rules width (callbacks 0) cache order
    if rc then processGlyphOrders rules width (fun i => callbacks (i + 1)) cache orders
      else .ok (false, cache)

end KvmServer.Cache
