import KvmServer.Codec.Region
import KvmServer.Codec.RfxSplit
import KvmServer.Codec.Rlgr
import KvmServer.Lib.ByteReader

/-! # Decoding RemoteFX messages (`rfx.c`)

`rfx_process_message` parses the blocks of a message into the context and copies the tiles to the
destination, inside of the rectangles.  Rectangles and tiles stay in the context, so a message may
draw those of an earlier one.  Memory is always available. -/

namespace KvmServer.Codec
open Lib Winpr

def UINT16_MAX : Nat := 0xFFFF

def WF_MAGIC : Nat := 0xCACCACCA
def WF_VERSION_1_0 : Nat := 0x0100

def WBT_SYNC : Nat := 0xCCC0
def WBT_CODEC_VERSIONS : Nat := 0xCCC1
def WBT_CHANNELS : Nat := 0xCCC2
def WBT_CONTEXT : Nat := 0xCCC3
def WBT_FRAME_BEGIN : Nat := 0xCCC4
def WBT_FRAME_END : Nat := 0xCCC5
def WBT_REGION : Nat := 0xCCC6
def WBT_EXTENSION : Nat := 0xCCC7
def CBT_REGION : Nat := 0xCAC1
def CBT_TILESET : Nat := 0xCAC2
def CBT_TILE : Nat := 0xCAC3

def CLW_ENTROPY_RLGR1 : Nat := 0x01
def CLW_ENTROPY_RLGR3 : Nat := 0x04

def RFX_DECODED_SYNC : UInt32 := 0x00000001
def RFX_DECODED_CONTEXT : UInt32 := 0x00000002
def RFX_DECODED_VERSIONS : UInt32 := 0x00000004
def RFX_DECODED_CHANNELS : UInt32 := 0x00000008
def RFX_DECODED_HEADERS : UInt32 := 0x0000000F

structure RfxPlanes where
  (quantY quantCb quantCr : List Nat)
  (yData cbData crData : List UInt8)
deriving DecidableEq, Repr

structure RfxDecodedTile (α : Type) where
  (x y : UInt16)
  data : Nat → Nat → α

/-- `currentMessage` of a decoder; `numRects` and `numTiles` are the lengths of the lists. -/
structure RfxDecoderMessage (α : Type) where
  rects : List RfxRect := []
  tiles : List (RfxDecodedTile α) := []

structure RfxContext (α : Type) where
  width : UInt16 := 0
  height : UInt16 := 0
  mode : RlgrMode := .rlgr1
  decodedHeaderBlocks : UInt32 := 0
  expectedDataBlockType : Nat := WBT_FRAME_BEGIN
  currentMessage : RfxDecoderMessage α := {}

variable {α : Type}

def rfxContextNew : RfxContext α := {}

variable (context : RfxContext α)

/-! ## Header blocks

Each handler takes the bit of its block away and sets it again when the block is right. -/

def RfxContext.clearHeader (bit : UInt32) : RfxContext α :=
  { context with decodedHeaderBlocks := context.decodedHeaderBlocks &&& ~~~bit }

def RfxContext.setHeader (bit : UInt32) : RfxContext α :=
  { context with decodedHeaderBlocks := context.decodedHeaderBlocks ||| bit }

def readSync : ByteReader Unit (Nat × Nat) := do
  let magic ← readLE () 4
  let version ← readLE () 2
  return (magic, version)

variable (s : List UInt8)

def rfxProcessMessageSync : RfxContext α × Bool :=
  let context := context.clearHeader RFX_DECODED_SYNC
  match readSync.run s with
  | .error _ => (context, false)
  | .ok ((magic, version), _) =>
    if magic ≠ WF_MAGIC then (context, false)
    else if version ≠ WF_VERSION_1_0 then (context, false)
    else (context.setHeader RFX_DECODED_SYNC, true)

def readCodecVersions : ByteReader Unit (Nat × Nat × Nat) := do
  let numCodecs ← readLE () 1
  let codecId ← readLE () 1
  let version ← readLE () 2
  return (numCodecs, codecId, version)

def rfxProcessMessageCodecVersions : RfxContext α × Bool :=
  let context := context.clearHeader RFX_DECODED_VERSIONS
  match readCodecVersions.run s with
  | .error _ => (context, false)
  | .ok ((numCodecs, codecId, version), _) =>
    if numCodecs ≠ 1 then (context, false)
    else if codecId ≠ 1 then (context, false)
    else if version ≠ WF_VERSION_1_0 then (context, false)
    else (context.setHeader RFX_DECODED_VERSIONS, true)

def readChannel : ByteReader Unit (Nat × Nat × Nat) := do
  let channelId ← readLE () 1
  let width ← readLE () 2
  let height ← readLE () 2
  return (channelId, width, height)

/-- Only the first channel is used; its size is stored before it is checked. -/
def rfxProcessMessageChannels : RfxContext α × Bool :=
  let context := context.clearHeader RFX_DECODED_CHANNELS
  match (readLE () 1).run s with
  | .error _ => (context, false)
  | .ok (numChannels, s) =>
    if numChannels < 1 then (context, false)
    else if s.length < 5 * numChannels then (context, false)
    else
      match readChannel.run s with
      | .error _ => (context, false)
      | .ok ((channelId, width, height), _) =>
        if channelId ≠ 0 then (context, false)
        else
          let context := { context with width := UInt16.ofNat width, height := UInt16.ofNat height }
          if width = 0 ∨ height = 0 then (context, false)
          else (context.setHeader RFX_DECODED_CHANNELS, true)

def readContext : ByteReader Unit (Nat × Nat × Nat) := do
  let ctxId ← readLE () 1
  let tileSize ← readLE () 2
  let properties ← readLE () 2
  return (ctxId, tileSize, properties)

def rfxProcessMessageContext : RfxContext α × Bool :=
  let context := context.clearHeader RFX_DECODED_CONTEXT
  match readContext.run s with
  | .error _ => (context, false)
  | .ok ((_, _, properties), _) =>
    let et := (properties &&& 0x1E00) >>> 9
    if et = CLW_ENTROPY_RLGR1 then ({ context with mode := .rlgr1 }.setHeader RFX_DECODED_CONTEXT, true)
    else if et =
      CLW_ENTROPY_RLGR3 then ({ context with mode := .rlgr3 }.setHeader RFX_DECODED_CONTEXT, true)
    else (context, false)

/-! ## Data blocks

Each handler expects its block and moves on to the next one, also when the block turns out to be
wrong. -/

def readFrameBegin : ByteReader Unit (Nat × Nat) := do
  let frameIdx ← readLE () 4
  let numRegions ← readLE () 2
  return (frameIdx, numRegions)

def rfxProcessMessageFrameBegin : RfxContext α × Bool :=
  if context.expectedDataBlockType ≠ WBT_FRAME_BEGIN then (context, false)
  else
    let context := { context with expectedDataBlockType := WBT_REGION }
    match readFrameBegin.run s with
    | .error _ => (context, false)
    | .ok _ => (context, true)

def rfxProcessMessageFrameEnd (_s : List UInt8) : RfxContext α × Bool :=
  if context.expectedDataBlockType ≠ WBT_FRAME_END then (context, false)
  else ({ context with expectedDataBlockType := WBT_FRAME_BEGIN }, true)

def readRect : ByteReader Unit RfxRect := do
  let x ← readLE () 2
  let y ← readLE () 2
  let width ← readLE () 2
  let height ← readLE () 2
  return ⟨UInt16.ofNat x, UInt16.ofNat y, UInt16.ofNat width, UInt16.ofNat height⟩

def readRects : Nat → ByteReader Unit (List RfxRect)
  | 0 => return []
  | n + 1 => do
    let rect ← readRect
    let rects ← readRects n
    return rect :: rects

def readRegionHead : ByteReader Unit Nat := do
  let _regionFlags ← readLE () 1
  readLE () 2

def readRegionTail : ByteReader Unit (Nat × Nat) := do
  let regionType ← readLE () 2
  let numTileSets ← readLE () 2
  return (regionType, numTileSets)

def rfxProcessMessageRegion : RfxContext α × Bool :=
  if context.expectedDataBlockType ≠ WBT_REGION then (context, false)
  else
    let context := { context with expectedDataBlockType := WBT_EXTENSION }
    let withRects := fun (rects : List RfxRect) =>
      { context with currentMessage := { context.currentMessage with rects := rects } }
    match readRegionHead.run s with
    | .error _ => (context, false)
    | .ok (numRects, s) =>
      -- without rectangles the whole picture is meant
      if numRects < 1 then (withRects [⟨0, 0, context.width, context.height⟩], true)
      else
        match (readRects numRects).run s with
        | .error _ => (context, false)
        | .ok (rects, s) =>
          match readRegionTail.run s with
          | .error _ => (withRects rects, false)
          | .ok ((regionType, numTileSets), _) =>
            -- a wrong type is logged only
            if regionType ≠ CBT_REGION then (withRects rects, true)
            else if numTileSets ≠ 1 then (withRects rects, false)
            else (withRects rects, true)

/-! ## Tiles -/

def quantValues (bytes : List UInt8) : List Nat :=
    bytes.flatMap fun quant => [quant.toNat &&& 0x0F, quant.toNat >>> 4]

def readQuants : Nat → ByteReader Unit (List (List Nat))
  | 0 => return []
  | n + 1 => do
    let bytes ← readBytes () 5
    let quants ← readQuants n
    return quantValues bytes :: quants

def readBlockHeader : ByteReader Unit (Nat × Nat) := do
  let blockType ← readLE () 2
  let blockLen ← readLE () 4
  return (blockType, blockLen)

structure RfxTileBody where
  (quantIdxY quantIdxCb quantIdxCr xIdx yIdx : Nat)
  (yData cbData crData : List UInt8)
deriving DecidableEq, Repr

def readTileBody : ByteReader Unit RfxTileBody := do
  let quantIdxY ← readLE () 1
  let quantIdxCb ← readLE () 1
  let quantIdxCr ← readLE () 1
  let xIdx ← readLE () 2
  let yIdx ← readLE () 2
  let yLen ← readLE () 2
  let cbLen ← readLE () 2
  let crLen ← readLE () 2
  let yData ← readBytes () yLen
  let cbData ← readBytes () cbLen
  let crData ← readBytes () crLen
  return ⟨quantIdxY, quantIdxCb, quantIdxCr, xIdx, yIdx, yData, cbData, crData⟩

section Tiles
-- `rfx_decode_rgb`; its result is not looked at
variable (decodeRgb : RlgrMode → RfxPlanes → Nat → Nat → α)

def rfxDecodeTile (mode : RlgrMode) (quants : List (List Nat)) (body : RfxTileBody) :
    RfxDecodedTile α where
  x := UInt16.ofNat (body.xIdx * 64)
  y := UInt16.ofNat (body.yIdx * 64)
  data := decodeRgb mode
    { quantY := quants.getD body.quantIdxY []
      quantCb := quants.getD body.quantIdxCb []
      quantCr := quants.getD body.quantIdxCr []
      yData := body.yData
      cbData := body.cbData
      crData := body.crData }

/-- The tile is read from all that follows, not only from the bytes of its block. -/
def rfxReadTile (mode : RlgrMode) (quants : List (List Nat)) (s : List UInt8) :
    Option (RfxDecodedTile α × List UInt8) :=
  match readBlockHeader.run s with
  | .error _ => none
  | .ok ((blockType, blockLen), sub) =>
    if s.length < blockLen then none
    else if blockLen < 6 + 13 ∨ sub.length < blockLen - 6 then none
    else if blockType ≠ CBT_TILE then none
    else
      match readTileBody.run sub with
      | .error _ => none
      | .ok (body, _) =>
        if body.quantIdxY ≥ quants.length then none
        else if body.quantIdxCb ≥ quants.length then none
        else if body.quantIdxCr ≥ quants.length then none
        else some (rfxDecodeTile decodeRgb mode quants body, s.drop blockLen)

def rfxReadTiles (mode : RlgrMode) (quants : List (List Nat)) :
    Nat → List UInt8 → Option (List (RfxDecodedTile α))
  | 0, _ => some []
  | n + 1, s =>
    match rfxReadTile decodeRgb mode quants s with
    | none => none
    | some (tile, s) =>
      match rfxReadTiles mode quants n s with
      | none => none
      | some tiles => some (tile :: tiles)

structure RfxTilesetHead where
  (subtype numQuant numTiles tilesDataSize : Nat)
deriving DecidableEq, Repr

def readTilesetHead : ByteReader Unit RfxTilesetHead := do
  let subtype ← readLE () 2
  let _idx ← readLE () 2
  let _properties ← readLE () 2
  let numQuant ← readLE () 1
  let _tileSize ← readLE () 1
  let numTiles ← readLE () 2
  let tilesDataSize ← readLE () 4
  return ⟨subtype, numQuant, numTiles, tilesDataSize⟩

variable (context : RfxContext α)

/-- A set without tiles keeps the ones of the message before. -/
def rfxProcessMessageTileset (s : List UInt8) : RfxContext α × Bool :=
  if context.expectedDataBlockType ≠ WBT_EXTENSION then (context, false)
  else
    let context := { context with expectedDataBlockType := WBT_FRAME_END }
    match readTilesetHead.run s with
    | .error _ => (context, false)
    | .ok (head, s) =>
      if head.subtype ≠ CBT_TILESET then (context, false)
      else if head.numQuant < 1 then (context, false)
      else if head.numTiles < 1 then (context, true)
      else
        match (readQuants head.numQuant).run s with
        | .error _ => (context, false)
        | .ok (quants, s) =>
          if s.length < head.tilesDataSize then (context, false)
          else
            match rfxReadTiles decodeRgb context.mode quants head.numTiles s with
            | none => (context, false)
            | some tiles =>
                ({ context with currentMessage := { context.currentMessage with tiles := tiles } }, true)

/-! ## The loop over the blocks -/

inductive RfxBlocks where
  | parsed
  | failed
  | refused
deriving DecidableEq, Repr

def readCodecChannel : ByteReader Unit (Nat × Nat) := do
  let codecId ← readLE () 1
  let channelId ← readLE () 1
  return (codecId, channelId)

def rfxCodecChannel (blockType : Nat) (s : List UInt8) : Option (Nat × List UInt8) :=
  if blockType ≥ WBT_CONTEXT ∧ blockType ≤ WBT_EXTENSION then
    match readCodecChannel.run s with
    | .error _ => none
    | .ok ((codecId, channelId), s) =>
      if codecId ≠ 1 then none
      else if channelId ≠ (if blockType = WBT_CONTEXT then 0xFF else 0x00) then none
      else some (2, s)
  else some (0, s)

def rfxReadBlock (s : List UInt8) : Option (Nat × List UInt8 × List UInt8) :=
  match readBlockHeader.run s with
  | .error _ => none
  | .ok ((blockType, blockLen), s) =>
    if blockLen < 6 then none
    else if s.length < blockLen - 6 then none
    else if blockType > WBT_CONTEXT ∧ context.decodedHeaderBlocks ≠ RFX_DECODED_HEADERS then none
    else
      match rfxCodecChannel blockType s with
      | none => none
      | some (extraBlockLen, s) =>
        if blockLen - 6 < extraBlockLen then none
        else some (blockType, s.take (blockLen - 6 - extraBlockLen),
          s.drop (blockLen - 6 - extraBlockLen))

def rfxProcessBlock (blockType : Nat) (subStream : List UInt8) : Option (RfxContext α × Bool) :=
  if blockType = WBT_SYNC then some (rfxProcessMessageSync context subStream)
  else if blockType = WBT_CONTEXT then some (rfxProcessMessageContext context subStream)
  else if blockType = WBT_CODEC_VERSIONS then some (rfxProcessMessageCodecVersions context subStream)
  else if blockType = WBT_CHANNELS then some (rfxProcessMessageChannels context subStream)
  else if blockType = WBT_FRAME_BEGIN then some (rfxProcessMessageFrameBegin context subStream)
  else if blockType = WBT_REGION then some (rfxProcessMessageRegion context subStream)
  else if blockType = WBT_EXTENSION then some (rfxProcessMessageTileset decodeRgb context subStream)
  else if blockType = WBT_FRAME_END then some (rfxProcessMessageFrameEnd context subStream)
  else none

def rfxProcessBlocks : Nat → RfxContext α → List UInt8 → RfxContext α × RfxBlocks
  | 0, context, _ => (context, .parsed)
  | fuel + 1, context, s =>
    if s.length ≤ 6 then (context, .parsed)
    else
      match rfxReadBlock context s with
      | none => (context, .refused)
      | some (blockType, subStream, s) =>
        match rfxProcessBlock decodeRgb context blockType subStream with
        | none => (context, .refused)
        | some (context, true) => rfxProcessBlocks fuel context s
        | some (context, false) => ({ context with currentMessage := {} }, .failed)

def rfxParse (data : List UInt8) : RfxContext α × RfxBlocks :=
  rfxProcessBlocks decodeRgb data.length context data

end Tiles

/-! ## Drawing -/

structure RfxCopy (α : Type) where
  (nXDst nYDst nWidth nHeight nXSrc nYSrc : Nat)
  data : Nat → Nat → α

/-- The clipping rectangle of a rectangle of the message.  The third and the fourth assertion look
at a rectangle that is still empty. -/
def rfxClippingRect (left top dstWidth dstHeight : Nat) (rect : RfxRect) : Except Stop Rectangle16 := do
  winprAssert (left + rect.x.toNat ≤ UINT16_MAX)
  winprAssert (top + rect.y.toNat ≤ UINT16_MAX)
  winprAssert (0 + rect.width.toNat ≤ UINT16_MAX)
  winprAssert (0 + rect.height.toNat ≤ UINT16_MAX)
  let clipLeft ← assertingCast 16 (min (left + rect.x.toNat) dstWidth)
  let clipTop ← assertingCast 16 (min (top + rect.y.toNat) dstHeight)
  let right ← assertingCast 16 (min (clipLeft + rect.width.toNat) dstWidth)
  let bottom ← assertingCast 16 (min (clipTop + rect.height.toNat) dstHeight)
  return ⟨clipLeft, clipTop, right, bottom⟩

def rfxClippingRects (left top dstWidth dstHeight : Nat) (rects : List RfxRect) : Except Stop Region16 :=
  rects.foldlM
    (fun clippingRects rect => do
      let clippingRect ← rfxClippingRect left top dstWidth dstHeight rect
      return region16UnionRect clippingRects clippingRect)
    region16Init

/-- The rectangle of a tile in the destination; its right and bottom edges are `UINT16` sums. -/
def rfxUpdateRect (left top : Nat) (tile : RfxDecodedTile α) : Except Stop Rectangle16 := do
  winprAssert (left + tile.x.toNat ≤ UINT16_MAX)
  winprAssert (top + tile.y.toNat ≤ UINT16_MAX)
  let updateLeft := (left + tile.x.toNat) % 2 ^ 16
  let updateTop := (top + tile.y.toNat) % 2 ^ 16
  return ⟨updateLeft, updateTop, (updateLeft + 64) % 2 ^ 16, (updateTop + 64) % 2 ^ 16⟩

def rfxCopy (updateRect cur : Rectangle16) (tile : RfxDecodedTile α) : RfxCopy α where
  nXDst := cur.left
  nYDst := cur.top
  nWidth := (cur.right + 2 ^ 32 - cur.left) % 2 ^ 32
  nHeight := (cur.bottom + 2 ^ 32 - cur.top) % 2 ^ 32
  nXSrc := (cur.left + 2 ^ 32 - updateRect.left) % 2 ^ 32
  nYSrc := (cur.top + 2 ^ 32 - updateRect.top) % 2 ^ 32
  data := tile.data

def rfxTileCopies (clippingRects : Region16) (left top : Nat) (tile : RfxDecodedTile α) :
    Except Stop (List (Rectangle16 × RfxCopy α)) := do
  let updateRect ← rfxUpdateRect left top tile
  return (region16IntersectRect clippingRects updateRect).rects.map fun cur =>
    (cur, rfxCopy updateRect cur tile)

def rfxCopies (clippingRects : Region16) (left top : Nat) :
    List (RfxDecodedTile α) → Except Stop (List (Rectangle16 × RfxCopy α))
  | [] => .ok []
  | tile :: tiles => do
    let copies ← rfxTileCopies clippingRects left top tile
    let others ← rfxCopies clippingRects left top tiles
    return copies ++ others

structure RfxResult (α : Type) where
  context : RfxContext α
  copies : List (RfxCopy α) := []
  invalidRegion : Option Region16
  ok : Bool

/-- The destination is `dstWidth` pixels wide, which is its stride over the size of a pixel. -/
def rfxProcessMessage (decodeRgb : RlgrMode → RfxPlanes → Nat → Nat → α)
    (context : RfxContext α) (data : List UInt8)
    (left top dstWidth dstHeight : Nat) (invalidRegion : Option Region16) :
    Except Stop (RfxResult α) := do
  if data = [] then return { context := context, invalidRegion := invalidRegion, ok := false }
  match rfxParse decodeRgb context data with
  | (context, .parsed) =>
    winprAssert (dstWidth ≤ UINT16_MAX)
    winprAssert (dstHeight ≤ UINT16_MAX)
    let clippingRects ← rfxClippingRects left top dstWidth dstHeight context.currentMessage.rects
    let copies ← rfxCopies clippingRects left top context.currentMessage.tiles
    return { context := context
             copies := copies.map Prod.snd
             invalidRegion :=
               invalidRegion.map fun region => (copies.map Prod.fst).foldl region16UnionRect region
             ok := true }
  | (context, _) => return { context := context, invalidRegion := invalidRegion, ok := false }

end KvmServer.Codec
