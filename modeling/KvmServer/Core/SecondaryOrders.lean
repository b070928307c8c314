import KvmServer.Core.OrderWriters

/-! # Secondary drawing orders: the caches (`core/orders.c`)

Readers and writers of the orders that fill the client's caches.  A reader starts from zeroed
memory.  A buffer is the list of the bytes that belong to it, and the stream always has room for
what is written. -/

namespace KvmServer.Core
open Lib Winpr

/-! ## Integers of varying length -/

/-- The upper two bits of the first byte are the number of bytes behind it. -/
def updateRead4byteUnsigned : OrderReader Nat := do
  let byte ← orderReadUint 1
  let count := (byte &&& 0xC0) >>> 6
  let low ← readBytes .refused count
  return (byte &&& 0x3F) <<< (8 * count) ||| beValue low

def updateWrite2byteUnsigned (value : Nat) : Except Stop (List UInt8) :=
  if value > 0x7FFF then .error .refused
  else if value ≥ 0x7F then .ok [UInt8.ofNat ((value &&& 0x7F00) >>> 8 ||| 0x80),
    UInt8.ofNat (value &&& 0xFF)]
  else .ok [UInt8.ofNat (value &&& 0x7F)]

/-- The magnitude of a 32-bit integer.  Its negation wraps around, so the least one stays negative. -/
def negated32 (value : Int) : Int := if value < 0 then Int.bmod (-value) (2 ^ 32) else value

def updateWrite2byteSigned (value : Int) : Except Stop (List UInt8) :=
  let sign := if value < 0 then 0x40 else 0
  let magnitude := negated32 value
  if magnitude > 0x3FFF then .error .refused
  else if magnitude ≥ 0x3F then
    .ok [UInt8.ofNat ((magnitude.toNat &&& 0x3F00) >>> 8 ||| sign ||| 0x80),
      UInt8.ofNat (magnitude.toNat &&& 0xFF)]
  -- the lower bits of a magnitude that stayed negative are zero, as `toNat` has it
  else .ok [UInt8.ofNat (magnitude.toNat &&& 0x3F ||| sign)]

def write4bytes (count value : Nat) : List UInt8 :=
  UInt8.ofNat (value >>> (8 * count) &&& 0x3F ||| count <<< 6) :: beBytes count value

def updateWrite4byteUnsigned (value : Nat) : Except Stop (List UInt8) :=
  if value ≤ 0x3F then .ok (write4bytes 0 value)
  else if value ≤ 0x3FFF then .ok (write4bytes 1 value)
  else if value ≤ 0x3FFFFF then .ok (write4bytes 2 value)
  else if value ≤ 0x3FFFFFFF then .ok (write4bytes 3 value)
  else .error .refused

def getBppBmf (bpp : Nat) : Except Stop Nat :=
  match bpp with
  | 1 => .ok 1
  | 8 => .ok 3
  | 16 => .ok 4
  | 24 => .ok 5
  | 32 => .ok 6
  | _ => .error .refused

/-- `get_cbr2_bpp`, which knows no depth of one bit. -/
def getCbr2Bpp (bpp : Nat) : OrderReader Nat :=
  match bpp with
  | 3 => pure 8
  | 4 => pure 16
  | 5 => pure 24
  | 6 => pure 32
  | _ => throw .refused

def readEntries {α : Type} (read : OrderReader α) : Nat → OrderReader (List α)
  | 0 => return []
  | count + 1 => do
    let entry ← read
    let entries ← readEntries read count
    return entry :: entries

def writeEntries {α : Type} (write : α → Except Stop (List UInt8)) : List α → Except Stop (List UInt8)
  | [] => return []
  | entry :: entries => do
    let bytes ← write entry
    let later ← writeEntries write entries
    return bytes ++ later

def readOrderBuffer (length : Nat) : OrderReader (List UInt8) := do
  orderRequire (length ≠ 0)
  readBytes .refused length

/-! ## Bitmaps -/

def NO_BITMAP_COMPRESSION_HDR : Nat := 0x0400

structure CacheBitmapOrder where
  cacheId : Nat := 0
  bitmapBpp : Nat := 0
  bitmapWidth : Nat := 0
  bitmapHeight : Nat := 0
  bitmapLength : Nat := 0
  cacheIndex : Nat := 0
  compressed : Bool := false
  bitmapComprHdr : List UInt8 := List.replicate 8 0
  bitmapDataStream : List UInt8 := []
deriving DecidableEq

variable (compressed : Bool)

def readBitmapComprHdr (flags bitmapLength : Nat) : OrderReader (List UInt8 × Nat) :=
  if compressed = true ∧ flags &&& NO_BITMAP_COMPRESSION_HDR = 0 then do
    let bitmapComprHdr ← readBytes .refused 8
    return (bitmapComprHdr, (bitmapLength + (2 ^ 32 - 8)) % 2 ^ 32)
  else return (List.replicate 8 0, bitmapLength)

variable (flags : Nat)

def updateReadCacheBitmapOrder : OrderReader CacheBitmapOrder := do
  let cacheId ← orderReadUint 1
  let _pad1Octet ← orderReadUint 1
  let bitmapWidth ← orderReadUint 1
  let bitmapHeight ← orderReadUint 1
  let bitmapBpp ← orderReadUint 1
  orderRequire (1 ≤ bitmapBpp ∧ bitmapBpp ≤ 32)
  let bitmapLength ← orderReadUint 2
  let cacheIndex ← orderReadUint 2
  let (bitmapComprHdr, bitmapLength) ← readBitmapComprHdr compressed flags bitmapLength
  let bitmapDataStream ← readOrderBuffer bitmapLength
  return { cacheId, bitmapBpp, bitmapWidth, bitmapHeight, bitmapLength, cacheIndex, compressed,
           bitmapComprHdr, bitmapDataStream }

/-- There is never a header, whether the data is compressed or not. -/
def updateWriteCacheBitmapOrder (_compressed : Bool) (cacheBitmap : CacheBitmapOrder) :
    Except Stop (OrderWritten CacheBitmapOrder) := do
  let cacheId ← orderWriteUint 1 cacheBitmap.cacheId
  let bitmapWidth ← orderWriteUint 1 cacheBitmap.bitmapWidth
  let bitmapHeight ← orderWriteUint 1 cacheBitmap.bitmapHeight
  let bitmapBpp ← orderWriteUint 1 cacheBitmap.bitmapBpp
  let bitmapLength ← orderWriteUint 2 cacheBitmap.bitmapLength
  let cacheIndex ← orderWriteUint 2 cacheBitmap.cacheIndex
  return ⟨NO_BITMAP_COMPRESSION_HDR, cacheBitmap,
    cacheId ++ ([0] ++ (bitmapWidth ++ (bitmapHeight ++ (bitmapBpp ++ (bitmapLength ++ (cacheIndex ++
      cacheBitmap.bitmapDataStream.take cacheBitmap.bitmapLength))))))⟩

def CBR2_HEIGHT_SAME_AS_WIDTH : Nat := 0x01
def CBR2_PERSISTENT_KEY_PRESENT : Nat := 0x02
def CBR2_NO_BITMAP_COMPRESSION_HDR : Nat := 0x08
def CBR2_DO_NOT_CACHE : Nat := 0x10
def BITMAP_CACHE_WAITING_LIST_INDEX : Nat := 0x7FFF

structure BitmapComprSizes where
  cbCompFirstRowSize : Nat := 0
  cbCompMainBodySize : Nat := 0
  cbScanWidth : Nat := 0
  cbUncompressedSize : Nat := 0
deriving DecidableEq

structure CacheBitmapV2Order extends BitmapComprSizes where
  cacheId : Nat := 0
  flags : Nat := 0
  key1 : UInt32 := 0
  key2 : UInt32 := 0
  bitmapBpp : Nat := 0
  bitmapWidth : Nat := 0
  bitmapHeight : Nat := 0
  bitmapLength : Nat := 0
  cacheIndex : Nat := 0
  compressed : Bool := false
  bitmapDataStream : List UInt8 := []
deriving DecidableEq

def readOrderKey : OrderReader UInt32 := do
  let key ← orderReadUint 4
  return UInt32.ofNat key

def readPersistentKey : OrderReader (UInt32 × UInt32) :=
  if flags &&& CBR2_PERSISTENT_KEY_PRESENT ≠ 0 then do
    let key1 ← readOrderKey
    let key2 ← readOrderKey
    return (key1, key2)
  else return (0, 0)

def readBitmapHeight (flags bitmapWidth : Nat) : OrderReader Nat :=
  if flags &&& CBR2_HEIGHT_SAME_AS_WIDTH ≠ 0 then pure bitmapWidth else updateRead2byteUnsigned

/-- The data of a version 2 order has a header, in front of compressed data and unless a flag says
otherwise. -/
def HasComprHdr : Prop :=
  compressed = true ∧ flags &&& CBR2_NO_BITMAP_COMPRESSION_HDR = 0

instance (compressed : Bool) (flags : Nat) : Decidable (HasComprHdr compressed flags) :=
  inferInstanceAs (Decidable (_ ∧ _))

def readBitmapComprSizes (flags bitmapLength : Nat) : OrderReader (BitmapComprSizes × Nat) :=
  if HasComprHdr compressed flags then do
    let cbCompFirstRowSize ← orderReadUint 2
    let cbCompMainBodySize ← orderReadUint 2
    let cbScanWidth ← orderReadUint 2
    let cbUncompressedSize ← orderReadUint 2
    return (⟨cbCompFirstRowSize, cbCompMainBodySize, cbScanWidth, cbUncompressedSize⟩,
      cbCompMainBodySize)
  else return ({}, bitmapLength)

def updateReadCacheBitmapV2Order (orderFlags : Nat) : OrderReader CacheBitmapV2Order := do
  let flags := (orderFlags &&& 0xFF80) >>> 7
  let bitmapBpp ← getCbr2Bpp ((orderFlags &&& 0x0078) >>> 3)
  let (key1, key2) ← readPersistentKey flags
  let bitmapWidth ← updateRead2byteUnsigned
  let bitmapHeight ← readBitmapHeight flags bitmapWidth
  let bitmapLength ← updateRead4byteUnsigned
  let cacheIndex ← updateRead2byteUnsigned
  let (sizes, bitmapLength) ← readBitmapComprSizes compressed flags bitmapLength
  let bitmapDataStream ← readOrderBuffer bitmapLength
  return { sizes with
           cacheId :=
             orderFlags &&& 0x0003, flags, key1, key2, bitmapBpp, bitmapWidth, bitmapHeight, bitmapLength,
           cacheIndex :=
             if flags &&& CBR2_DO_NOT_CACHE ≠ 0 then BITMAP_CACHE_WAITING_LIST_INDEX else cacheIndex,
           compressed, bitmapDataStream }

variable (order : CacheBitmapV2Order)

def writePersistentKey : List UInt8 :=
  if order.flags &&& CBR2_PERSISTENT_KEY_PRESENT ≠ 0 then leBytes 4 order.key1.toNat ++
    leBytes 4 order.key2.toNat
  else []

def writeBitmapHeight : Except Stop (List UInt8) :=
  if order.flags &&& CBR2_HEIGHT_SAME_AS_WIDTH ≠ 0 then .ok []
    else updateWrite2byteUnsigned order.bitmapHeight

def writeBitmapComprSizes : Except Stop (List UInt8) :=
  if HasComprHdr compressed order.flags then do
    let cbCompFirstRowSize ← orderWriteUint 2 order.cbCompFirstRowSize
    let cbCompMainBodySize ← orderWriteUint 2 order.cbCompMainBodySize
    let cbScanWidth ← orderWriteUint 2 order.cbScanWidth
    let cbUncompressedSize ← orderWriteUint 2 order.cbUncompressedSize
    return cbCompFirstRowSize ++ (cbCompMainBodySize ++ (cbScanWidth ++ cbUncompressedSize))
  else return []

/-- What the writer makes of the order: the index of a bitmap that is not cached, and the length
behind a header. -/
def CacheBitmapV2Order.normalised (compressed : Bool) : CacheBitmapV2Order :=
  { order with
    cacheIndex :=
      if order.flags &&& CBR2_DO_NOT_CACHE ≠ 0 then BITMAP_CACHE_WAITING_LIST_INDEX else order.cacheIndex
    bitmapLength :=
      if HasComprHdr compressed order.flags then order.cbCompMainBodySize else order.bitmapLength
    compressed }

/-- The length in front of a header is the one the order came with. -/
def updateWriteCacheBitmapV2Order : Except Stop (OrderWritten CacheBitmapV2Order) := do
  let bitsPerPixelId ← getBppBmf order.bitmapBpp
  winprAssert (order.cacheId ≤ 3 ∧ bitsPerPixelId ≤ 0x0F ∧ order.flags ≤ 0x1FF)
  let bitmapWidth ← updateWrite2byteUnsigned order.bitmapWidth
  let bitmapHeight ← writeBitmapHeight order
  let bitmapLength ← updateWrite4byteUnsigned order.bitmapLength
  let cacheIndex ← updateWrite2byteUnsigned (order.normalised compressed).cacheIndex
  let sizes ← writeBitmapComprSizes compressed order
  return ⟨order.cacheId &&& 0x0003 ||| (bitsPerPixelId <<< 3) &&& 0xFFFF |||
    (order.flags <<< 7) &&& 0xFF80,
    order.normalised compressed,
    writePersistentKey order ++
      (bitmapWidth ++ (bitmapHeight ++ (bitmapLength ++ (cacheIndex ++ (sizes ++
      order.bitmapDataStream.take (order.normalised compressed).bitmapLength)))))⟩

structure BitmapDataEx where
  bpp : Nat := 0
  codecID : Nat := 0
  width : Nat := 0
  height : Nat := 0
  length : UInt32 := 0
  data : List UInt8 := []
deriving DecidableEq

structure CacheBitmapV3Order where
  cacheId : Nat := 0
  bpp : Nat := 0
  flags : Nat := 0
  cacheIndex : Nat := 0
  key1 : UInt32 := 0
  key2 : UInt32 := 0
  bitmapData : BitmapDataEx := {}
deriving DecidableEq

def updateReadCacheBitmapV3Order (orderFlags : Nat) : OrderReader CacheBitmapV3Order := do
  let bpp ← getCbr2Bpp ((orderFlags &&& 0x0078) >>> 3)
  let cacheIndex ← orderReadUint 2
  let key1 ← readOrderKey
  let key2 ← readOrderKey
  let dataBpp ← orderReadUint 1
  orderRequire (1 ≤ dataBpp ∧ dataBpp ≤ 32)
  let _reserved ← orderReadUint 2
  let codecID ← orderReadUint 1
  let width ← orderReadUint 2
  let height ← orderReadUint 2
  let length ← readOrderKey
  let data ← readOrderBuffer length.toNat
  return { cacheId := orderFlags &&& 0x0003, flags := (orderFlags &&& 0xFF80) >>> 7, bpp,
           cacheIndex, key1, key2, bitmapData := { bpp := dataBpp, codecID, width, height, length, data } }

/-- Cache id and flags are cut off. -/
def updateWriteCacheBitmapV3Order (order : CacheBitmapV3Order) :
    Except Stop (OrderWritten CacheBitmapV3Order) := do
  let bitsPerPixelId ← getBppBmf order.bpp
  let cacheIndex ← orderWriteUint 2 order.cacheIndex
  let bpp ← orderWriteUint 1 order.bitmapData.bpp
  let codecID ← orderWriteUint 1 order.bitmapData.codecID
  let width ← orderWriteUint 2 order.bitmapData.width
  let height ← orderWriteUint 2 order.bitmapData.height
  return ⟨order.cacheId &&& 0x0003 ||| (bitsPerPixelId <<< 3) &&& 0x0078 |||
    (order.flags <<< 7) &&& 0xFF80, order,
    cacheIndex ++
      (leBytes 4 order.key1.toNat ++ (leBytes 4 order.key2.toNat ++ (bpp ++ ([0, 0] ++ (codecID ++
      (width ++ (height ++ (leBytes 4 order.bitmapData.length.toNat ++
        order.bitmapData.data.take order.bitmapData.length.toNat))))))))⟩

/-! ## Colour tables -/

structure CacheColorTableOrder where
  cacheIndex : Nat := 0
  numberColors : Nat := 0
  colorTable : List Nat := List.replicate 256 0

def updateReadColorQuad : OrderReader Nat := do
  let color ← orderReadUint 3
  let _unused ← orderReadUint 1
  return color

def updateReadCacheColorTableOrder (_flags : Nat) : OrderReader CacheColorTableOrder := do
  let cacheIndex ← orderReadUint 1
  let numberColors ← orderReadUint 2
  orderRequire (numberColors = 256)
  let colorTable ← readEntries updateReadColorQuad numberColors
  return { cacheIndex, numberColors, colorTable }

def updateWriteColorQuad (color : Nat) : List UInt8 := beBytes 3 color

def updateWriteCacheColorTableOrder (order : CacheColorTableOrder) :
    Except Stop (OrderWritten CacheColorTableOrder) :=
  if order.numberColors ≠ 256 then .error .refused
  else do
    let cacheIndex ← orderWriteUint 1 order.cacheIndex
    let numberColors ← orderWriteUint 2 order.numberColors
    return ⟨flags, order,
      cacheIndex ++
        (numberColors ++ (order.colorTable.take order.numberColors).flatMap updateWriteColorQuad)⟩

/-! ## Glyphs -/

def CG_GLYPH_UNICODE_PRESENT : Nat := 0x0010

def glyphBytes (cx cy : Nat) : Nat :=
  let cb := (cx + 7) / 8 * cy
  cb + if cb % 4 > 0 then 4 - cb % 4 else 0

structure GlyphData where
  cacheIndex : Nat := 0
  x : Int := 0
  y : Int := 0
  cx : Nat := 0
  cy : Nat := 0
  cb : Nat := 0
  aj : List UInt8 := []
deriving DecidableEq

/-- `glyphData` are the first `cGlyphs` of the array; no characters are `NULL`. -/
structure CacheGlyphOrder where
  cacheId : Nat := 0
  cGlyphs : Nat := 0
  glyphData : List GlyphData := []
  unicodeCharacters : Option (List Nat) := none
deriving DecidableEq

structure CacheGlyphV2Order where
  cacheId : Nat := 0
  flags : Nat := 0
  cGlyphs : Nat := 0
  glyphData : List GlyphDataV2 := []
  unicodeCharacters : Option (List Nat) := none
deriving DecidableEq

def orderReadInt16 : OrderReader Int := do
  let value ← orderReadUint 2
  return signedValue 16 value

def readGlyphData : OrderReader GlyphData := do
  let cacheIndex ← orderReadUint 2
  let x ← orderReadInt16
  let y ← orderReadInt16
  let cx ← orderReadUint 2
  let cy ← orderReadUint 2
  let aj ← readBytes .refused (glyphBytes cx cy)
  return { cacheIndex, x, y, cx, cy, cb := glyphBytes cx cy, aj }

def readUnicodeCharacters (flags cGlyphs : Nat) : OrderReader (Option (List Nat)) :=
  if flags &&& CG_GLYPH_UNICODE_PRESENT ≠ 0 ∧ cGlyphs > 0 then do
    let unicodeCharacters ← readEntries (orderReadUint 2) cGlyphs
    return some unicodeCharacters
  else return none

def updateReadCacheGlyphOrder : OrderReader CacheGlyphOrder := do
  let cacheId ← orderReadUint 1
  let cGlyphs ← orderReadUint 1
  let glyphData ← readEntries readGlyphData cGlyphs
  let unicodeCharacters ← readUnicodeCharacters flags cGlyphs
  return { cacheId, cGlyphs, glyphData, unicodeCharacters }

/-- `x` and `y` are 16-bit integers already. -/
def writeGlyphData (glyph : GlyphData) : Except Stop (List UInt8) := do
  let cacheIndex ← orderWriteUint 2 glyph.cacheIndex
  let cx ← orderWriteUint 2 glyph.cx
  let cy ← orderWriteUint 2 glyph.cy
  return cacheIndex ++
    (leBytes 2 (glyph.x % 2 ^ 16).toNat ++ (leBytes 2 (glyph.y % 2 ^ 16).toNat ++ (cx ++ (cy ++
    glyph.aj.take (glyphBytes glyph.cx glyph.cy)))))

/-- The characters are zero. -/
def writeUnicodeCharacters (flags cGlyphs : Nat) : List UInt8 :=
  if flags &&& CG_GLYPH_UNICODE_PRESENT ≠ 0 then List.replicate (2 * cGlyphs) 0 else []

/-- The flags are those that the caller passes. -/
def updateWriteCacheGlyphOrder (order : CacheGlyphOrder) :
    Except Stop (OrderWritten CacheGlyphOrder) := do
  let cacheId ← orderWriteUint 1 order.cacheId
  let cGlyphs ← orderWriteUint 1 order.cGlyphs
  let glyphData ← writeEntries writeGlyphData (order.glyphData.take order.cGlyphs)
  return ⟨flags, order,
    cacheId ++ (cGlyphs ++ (glyphData ++ writeUnicodeCharacters flags order.cGlyphs))⟩

def readGlyphDataV2 : OrderReader GlyphDataV2 := do
  let cacheIndex ← orderReadUint 1
  let x ← updateRead2byteSigned
  let y ← updateRead2byteSigned
  let cx ← updateRead2byteUnsigned
  let cy ← updateRead2byteUnsigned
  let aj ← readBytes .refused (glyphBytes cx cy)
  return { cacheIndex, x, y, cx, cy, cb := glyphBytes cx cy, aj }

def updateReadCacheGlyphV2Order : OrderReader CacheGlyphV2Order := do
  let cGlyphs := (flags &&& 0xFF00) >>> 8
  let glyphData ← readEntries readGlyphDataV2 cGlyphs
  let unicodeCharacters ← readUnicodeCharacters flags cGlyphs
  return { cacheId := flags &&& 0x000F, flags := (flags &&& 0x00F0) >>> 4, cGlyphs, glyphData,
           unicodeCharacters }

def writeGlyphDataV2 (glyph : GlyphDataV2) : Except Stop (List UInt8) := do
  let cacheIndex ← orderWriteUint 1 glyph.cacheIndex
  let x ← updateWrite2byteSigned glyph.x
  let y ← updateWrite2byteSigned glyph.y
  let cx ← updateWrite2byteUnsigned glyph.cx
  let cy ← updateWrite2byteUnsigned glyph.cy
  return cacheIndex ++ (x ++ (y ++ (cx ++ (cy ++ glyph.aj.take (glyphBytes glyph.cx glyph.cy)))))

def updateWriteCacheGlyphV2Order (order : CacheGlyphV2Order) :
    Except Stop (OrderWritten CacheGlyphV2Order) := do
  winprAssert (order.cacheId ≤ 0x0F ∧ order.flags ≤ 0x0F ∧ order.cGlyphs ≤ 0xFF)
  let flags :=
    order.cacheId &&& 0x000F ||| (order.flags &&& 0x000F) <<< 4 ||| (order.cGlyphs &&& 0x00FF) <<< 8
  let glyphData ← writeEntries writeGlyphDataV2 (order.glyphData.take order.cGlyphs)
  return ⟨flags, order, glyphData ++ writeUnicodeCharacters flags order.cGlyphs⟩

/-! ## Brushes -/

structure CacheBrushOrder where
  index : Nat := 0
  bpp : Nat := 0
  cx : Nat := 0
  cy : Nat := 0
  style : Nat := 0
  length : Nat := 0
  data : List UInt8 := List.replicate 256 0
deriving DecidableEq

def readBrushRows (scanline : Nat) : OrderReader (List UInt8) := do
  let rows ← readEntries (readBytes .refused scanline) 8
  return rows.reverse.flatten

def writeBrushRows (scanline : Nat) (data : List UInt8) : List UInt8 :=
  ((List.range 8).reverse.map fun row => (data.drop (row * scanline)).take scanline).flatten

def brushCompressed (iBitmapFormat length : Nat) : Bool :=
  (iBitmapFormat, length) ∈ [(3, 20), (4, 24), (5, 28), (6, 32)]

/-- The writer does not know the compressed brush of 24 bits. -/
def brushCompressedToWrite (iBitmapFormat length : Nat) : Bool :=
  (iBitmapFormat, length) ∈ [(3, 20), (4, 24), (6, 32)]

/-- Rows one to seven out of a palette of four colours, which stands behind 16 bytes of indices. -/
def updateDecompressBrush (bpp : Nat) : OrderReader (List UInt8) := fun bytes =>
  let bytesPerPixel := (bpp + 1) / 8
  if (4 + bytesPerPixel) * 4 ≤ bytes.length then
    let palette := bytes.drop 16
    let pixel (row column k : Nat) : UInt8 :=
      let byte := (bytes.getD (2 * (7 - row) + column / 4) 0).toNat
      palette.getD ((byte >>> ((3 - column % 4) * 2) &&& 0x03) * bytesPerPixel + k) 0
    let output := (List.range 256).map fun i =>
      let row := i / bytesPerPixel / 8
      if 1 ≤ row ∧ row ≤ 7 then pixel row (i / bytesPerPixel % 8) (i % bytesPerPixel) else 0
    .ok (output, bytes.drop 14)
  else .error .refused

def readBrushPixels (iBitmapFormat bpp length : Nat) : OrderReader (List UInt8) :=
  if bpp = 1 then do
    orderRequire (length = 8)
    let rows ← readBrushRows 1
    return copyMemory (List.replicate 256 0) rows
  else if brushCompressed iBitmapFormat length then updateDecompressBrush bpp
  else do
    let rows ← readBrushRows (bpp / 8 * 8)
    return copyMemory (List.replicate 256 0) rows

def readBrushOfSize (cx cy iBitmapFormat bpp length : Nat) : OrderReader (List UInt8) :=
  if cx = 8 ∧ cy = 8 then readBrushPixels iBitmapFormat bpp length else return List.replicate 256 0

def readBmfBpp (iBitmapFormat : Nat) : OrderReader Nat :=
  match getBmfBpp iBitmapFormat with
  | none => throw .refused
  | some bpp => pure bpp

def updateReadCacheBrushOrder (_flags : Nat) : OrderReader CacheBrushOrder := do
  let index ← orderReadUint 1
  let iBitmapFormat ← orderReadUint 1
  let bpp ← readBmfBpp iBitmapFormat
  let cx ← orderReadUint 1
  let cy ← orderReadUint 1
  let style ← orderReadUint 1
  let length ← orderReadUint 1
  let data ← readBrushOfSize cx cy iBitmapFormat bpp length
  return { index, bpp, cx, cy, style, length, data }

/-- `update_compress_brush` always fails. -/
def writeBrushPixels (iBitmapFormat : Nat) (order : CacheBrushOrder) : Except Stop (List UInt8) :=
  if order.bpp = 1 then
    if order.length ≠ 8 then .error .refused else .ok (writeBrushRows 1 order.data)
  else if brushCompressedToWrite iBitmapFormat order.length then .error .refused
  else .ok (writeBrushRows (8 * (order.bpp / 8)) order.data)

def writeBrushOfSize (iBitmapFormat : Nat) (order : CacheBrushOrder) : Except Stop (List UInt8) :=
  if order.cx = 8 ∧ order.cy = 8 then writeBrushPixels iBitmapFormat order else .ok []

def updateWriteCacheBrushOrder (order : CacheBrushOrder) :
    Except Stop (OrderWritten CacheBrushOrder) := do
  let iBitmapFormat ← getBppBmf order.bpp
  let index ← orderWriteUint 1 order.index
  let cx ← orderWriteUint 1 order.cx
  let cy ← orderWriteUint 1 order.cy
  let style ← orderWriteUint 1 order.style
  let length ← orderWriteUint 1 order.length
  let pixels ← writeBrushOfSize iBitmapFormat order
  return ⟨flags, order,
    index ++ ([UInt8.ofNat iBitmapFormat] ++ (cx ++ (cy ++ (style ++ (length ++ pixels)))))⟩

end KvmServer.Core
