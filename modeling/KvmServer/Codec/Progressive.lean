import KvmServer.Codec.ProgressiveTile
import KvmServer.Codec.RfxDecoder

/-! # The progressive decoder (`codec/progressive.c`)

A message is a list of blocks; a region block carries tiles, which go into the tile cache of the
surface and are then decoded by a pool of threads.  At the end the tiles that were touched are
copied to the destination. The rectangles of the last region stay in the context.  Memory is always
available; what it holds at first is a parameter. -/

namespace KvmServer.Codec
open Lib

def PROGRESSIVE_WBT_SYNC : Nat := 0xCCC0
def PROGRESSIVE_WBT_FRAME_BEGIN : Nat := 0xCCC1
def PROGRESSIVE_WBT_FRAME_END : Nat := 0xCCC2
def PROGRESSIVE_WBT_CONTEXT : Nat := 0xCCC3
def PROGRESSIVE_WBT_REGION : Nat := 0xCCC4
def PROGRESSIVE_WBT_TILE_SIMPLE : Nat := 0xCCC5
def PROGRESSIVE_WBT_TILE_FIRST : Nat := 0xCCC6
def PROGRESSIVE_WBT_TILE_UPGRADE : Nat := 0xCCC7

/-! ## Surfaces -/

/-- `PROGRESSIVE_SURFACE_CONTEXT`; `tilesSize` and `numUpdatedTiles` are the lengths of the lists. -/
structure ProgressiveSurface where
  (width height gridWidth gridHeight gridSize : Nat)
  tiles : List ProgressiveTile
  frameId : Nat
  updatedTileIndices : List Nat

section Surfaces
-- the contents of `current` and `sign` of a new tile
variable (memory : Nat → Int)

def progressiveTileNew : ProgressiveTile where
  blockType := .simple
  quantIdxY := 0
  quantIdxCb := 0
  quantIdxCr := 0
  xIdx := 0
  yIdx := 0
  flags := 0
  quality := 0
  dirty := false
  x := 0
  y := 0
  yData := []
  cbData := []
  crData := []
  ySrlData := []
  yRawData := []
  cbSrlData := []
  cbRawData := []
  crSrlData := []
  crRawData := []
  yComponent := ⟨fun _ => 0, memory, memory⟩
  cbComponent := ⟨fun _ => 0, memory, memory⟩
  crComponent := ⟨fun _ => 0, memory, memory⟩

variable (surface : ProgressiveSurface)

/-- The cache of a new surface, or one that grows in steps of 1024. -/
def progressiveAllocateTileCache (min : Nat) : Except ProgressiveFault ProgressiveSurface := do
  checkAssertion (0 < surface.gridSize)
  let oldIndex := surface.tiles.length
  let gridSize :=
    if oldIndex = 0 then surface.gridSize
      else surface.gridSize + (min - surface.gridSize + 1023) / 1024 * 1024
  return { surface with
    gridSize := gridSize
    tiles := surface.tiles ++ List.replicate (gridSize - oldIndex) (progressiveTileNew memory) }

def progressiveSurfaceNew (width height : Nat) : Except ProgressiveFault ProgressiveSurface :=
  let gridWidth := (width + (64 - width % 64)) % 2 ^ 32 / 64
  let gridHeight := (height + (64 - height % 64)) % 2 ^ 32 / 64
  let gridSize := gridWidth * gridHeight % 2 ^ 32
  progressiveAllocateTileCache memory
    { width := width
      height := height
      gridWidth := gridWidth
      gridHeight := gridHeight
      gridSize := gridSize
      tiles := []
      frameId := 0
      updatedTileIndices := [] }
    gridSize

structure TileFields where
  blockType : TileBlock
  (quantIdxY quantIdxCb quantIdxCr xIdx yIdx flags quality : Nat)
  planes : List UInt8 × List UInt8 × List UInt8
  srl : List UInt8 × List UInt8 × List UInt8
  raw : List UInt8 × List UInt8 × List UInt8

def TileFields.store (fields : TileFields) (t : ProgressiveTile) : ProgressiveTile :=
  let t := { t with
    blockType := fields.blockType
    quantIdxY := fields.quantIdxY
    quantIdxCb := fields.quantIdxCb
    quantIdxCr := fields.quantIdxCr
    xIdx := fields.xIdx
    yIdx := fields.yIdx
    flags := fields.flags
    quality := fields.quality
    x := fields.xIdx * 64
    y := fields.yIdx * 64 }
  if fields.blockType = .upgrade then
    { t with
      ySrlData := fields.srl.1, cbSrlData := fields.srl.2.1, crSrlData := fields.srl.2.2
      yRawData := fields.raw.1, cbRawData := fields.raw.2.1, crRawData := fields.raw.2.2 }
  else { t with yData := fields.planes.1, cbData := fields.planes.2.1, crData := fields.planes.2.2 }

def progressiveTileRoom : Except ProgressiveFault ProgressiveSurface :=
  if surface.updatedTileIndices.length ≥ surface.gridSize then
    progressiveAllocateTileCache memory surface (surface.updatedTileIndices.length + 1)
  else .ok surface

def progressiveTouchTile (zIdx : Nat) (t : ProgressiveTile) :
    Except ProgressiveFault ProgressiveSurface := do
  let surface ← progressiveTileRoom memory surface
  return { surface with
    updatedTileIndices := surface.updatedTileIndices ++ [zIdx]
    tiles := surface.tiles.set zIdx { t with dirty := true } }

/-- The surface, and where the tile went; `usedTiles` is what the region has so far.
The tile is overwritten before the number of tiles is checked. -/
def progressiveSurfaceTileReplace (usedTiles numTiles : Nat) (fields : TileFields) :
    Except ProgressiveFault (ProgressiveSurface × Option Nat) :=
  let zIdx := (fields.yIdx * surface.gridWidth + fields.xIdx) % 2 ^ 32
  match surface.tiles[zIdx]? with
  | none => .ok (surface, none)
  | some t =>
    let t := fields.store t
    let surface := { surface with tiles := surface.tiles.set zIdx t }
    if usedTiles ≥ numTiles then .ok (surface, none)
    else if t.dirty then .ok (surface, some zIdx)
    else do
      let surface ← progressiveTouchTile memory surface zIdx t
      return (surface, some zIdx)

/-! ## Tile blocks -/

def readTileIndices : ByteReader Unit (Nat × Nat × Nat × Nat × Nat) := do
  let quantIdxY ← readLE () 1
  let quantIdxCb ← readLE () 1
  let quantIdxCr ← readLE () 1
  let xIdx ← readLE () 2
  let yIdx ← readLE () 2
  return (quantIdxY, quantIdxCb, quantIdxCr, xIdx, yIdx)

def readQuality (simple : Bool) : ByteReader Unit Nat := if simple then return 0xFF else readLE () 1

/-- `progressive_tile_read` up to the call of `progressive_surface_tile_replace`. -/
def progressiveTileRead (simple : Bool) : ByteReader Unit TileFields := do
  let (quantIdxY, quantIdxCb, quantIdxCr, xIdx, yIdx) ← readTileIndices
  let flags ← readLE () 1
  let quality ← readQuality simple
  let yLen ← readLE () 2
  let cbLen ← readLE () 2
  let crLen ← readLE () 2
  let tailLen ← readLE () 2
  let yData ← readBytes () yLen
  let cbData ← readBytes () cbLen
  let crData ← readBytes () crLen
  let _tailData ← readBytes () tailLen
  return { blockType := if simple then .simple else .first
           quantIdxY, quantIdxCb, quantIdxCr, xIdx, yIdx, flags, quality
           planes := (yData, cbData, crData), srl := ([], [], []), raw := ([], [], []) }

/-- `progressive_tile_read_upgrade` up to the call of `progressive_surface_tile_replace`. -/
def progressiveTileReadUpgrade : ByteReader Unit TileFields := do
  let (quantIdxY, quantIdxCb, quantIdxCr, xIdx, yIdx) ← readTileIndices
  let quality ← readLE () 1
  let ySrlLen ← readLE () 2
  let yRawLen ← readLE () 2
  let cbSrlLen ← readLE () 2
  let cbRawLen ← readLE () 2
  let crSrlLen ← readLE () 2
  let crRawLen ← readLE () 2
  let ySrlData ← readBytes () ySrlLen
  let yRawData ← readBytes () yRawLen
  let cbSrlData ← readBytes () cbSrlLen
  let cbRawData ← readBytes () cbRawLen
  let crSrlData ← readBytes () crSrlLen
  let crRawData ← readBytes () crRawLen
  return { blockType := .upgrade, quantIdxY, quantIdxCb, quantIdxCr, xIdx, yIdx, flags := 0, quality
           planes := ([], [], []), srl := (ySrlData, cbSrlData, crSrlData), raw :=
             (yRawData, cbRawData, crRawData) }

def tileReader (blockType : Nat) : Option (ByteReader Unit TileFields) :=
  if blockType = PROGRESSIVE_WBT_TILE_SIMPLE then some (progressiveTileRead true)
  else if blockType = PROGRESSIVE_WBT_TILE_FIRST then some (progressiveTileRead false)
  else if blockType = PROGRESSIVE_WBT_TILE_UPGRADE then some progressiveTileReadUpgrade
  else none

abbrev TilesRead := ProgressiveSurface × Option (List Nat × Nat × List UInt8)

def progressiveReadTiles (numTiles tileDataSize : Nat) :
    Nat → ProgressiveSurface → List Nat → Nat → List UInt8 → Except ProgressiveFault TilesRead
  | 0, surface, tiles, consumed, s => .ok (surface, some (tiles, consumed, s))
  | fuel + 1, surface, tiles, consumed, s =>
    if s.length < 6 ∨ tileDataSize ≤ consumed then .ok (surface, some (tiles, consumed, s))
    else
      match readBlockHeader.run s with
      | .error _ => .ok (surface, none)
      | .ok ((blockType, blockLen), rest) =>
        if blockLen < 6 then .ok (surface, none)
        else if rest.length < blockLen - 6 then .ok (surface, none)
        else
          match tileReader blockType with
          | none => .ok (surface, none)
          | some reader =>
            match reader.run rest with
            | .error _ => .ok (surface, none)
            | .ok (fields, rest) => do
              let (surface, index) ← progressiveSurfaceTileReplace memory surface
                tiles.length numTiles fields
              match index with
              | none => return (surface, none)
              | some zIdx =>
                if s.length - rest.length ≠ blockLen then return (surface, none)
                else progressiveReadTiles numTiles tileDataSize fuel surface (tiles ++ [zIdx]) (consumed + blockLen) rest

/-- How a pool of threads runs the work items of the tiles of a region: in which order it gets to
them, and what an item makes of a tile on which another item works at the same time. -/
structure ThreadPool where
  order : List Nat → List Nat
  order_perm : ∀ items, (order items).Perm items
  race : ProgressiveTile → Except ProgressiveFault (ProgressiveTile × Int)

/-- The work items in the order in which they run, with the status that each of them drops. -/
def progressiveRunItems
    (work : Nat → ProgressiveTile → Except ProgressiveFault (ProgressiveTile × Int)) :
    List Nat → ProgressiveSurface → Except ProgressiveFault (ProgressiveSurface × List Int)
  | [], surface => .ok (surface, [])
  | zIdx :: items, surface => do
    let (tile, status) ← work zIdx (surface.tiles.getD zIdx (progressiveTileNew memory))
    let (surface, statuses) ←
      progressiveRunItems work items { surface with tiles := surface.tiles.set zIdx tile }
    return (surface, status :: statuses)

/-- The end of `progressive_process_tiles`; there is a pool if `UseThreads` is set. -/
def progressiveDecodeTiles (threads : Option ThreadPool) (region : RegionQuants) (tiles : List Nat)
    (surface : ProgressiveSurface) : Except ProgressiveFault (ProgressiveSurface × List Int) :=
  match threads with
  | none => progressiveRunItems memory (fun _ => decompressTile region) tiles surface
  | some pool => do
    -- the count of the items to wait for
    checkAssertion (tiles.length < 2 ^ 16)
    -- nothing keeps two blocks of a region from naming one tile; their items race
    progressiveRunItems memory
      (fun zIdx tile => if tiles.count zIdx = 1 then decompressTile region tile else pool.race tile)
      (pool.order tiles) surface

/-! ## Region blocks -/

structure ProgressiveRects where
  numRects : Nat
  rects : Nat → RfxRect

/-- The surface, the rectangles and the thread pool of the context and its flags for the frame; and
the statuses of the tiles so far. -/
structure ProgressiveState where
  surface : ProgressiveSurface
  region : ProgressiveRects
  threads : Option ThreadPool
  (frameBegin frameEnd : Bool)
  statuses : List Int

structure RegionHeader where
  (tileSize numRects numQuant numProgQuant flags numTiles tileDataSize : Nat)

def readRegionHeader : ByteReader Unit RegionHeader := do
  let tileSize ← readLE () 1
  let numRects ← readLE () 2
  let numQuant ← readLE () 1
  let numProgQuant ← readLE () 1
  let flags ← readLE () 1
  let numTiles ← readLE () 2
  let tileDataSize ← readLE () 4
  return ⟨tileSize, numRects, numQuant, numProgQuant, flags, numTiles, tileDataSize⟩

def RegionHeader.fits (header : RegionHeader) (len : Nat) : Bool :=
  let expect :=
    header.numRects * 8 + header.numQuant * 5 + header.numProgQuant * 16 + header.tileDataSize
  if expect = len then true
  else if len / 8 < header.numRects then false
  else
    let len := len - header.numRects * 8
    if len / 5 < header.numQuant then false
    else
      let len := len - header.numQuant * 5
      if len / 16 < header.numProgQuant then false
      else ¬len - header.numProgQuant * 16 < header.tileDataSize

variable (state : ProgressiveState)

/-- `progressive_wb_read_region_header`: the number of rectangles is stored before the header is
checked. -/
def progressiveReadRegionHeader (s : List UInt8) :
    ProgressiveState × Option (RegionHeader × List UInt8) :=
  match readRegionHeader.run s with
  | .error _ => (state, none)
  | .ok (header, rest) =>
    let state := { state with region := { state.region with numRects := header.numRects } }
    if header.tileSize ≠ 64 then (state, none)
    else if header.numRects < 1 then (state, none)
    else if header.numQuant > 7 then (state, none)
    else if ¬header.fits rest.length then (state, none)
    else (state, some (header, rest))

def readQuant : ByteReader Unit ComponentCodecQuant := do
  let bytes ← readBytes () 5
  return quantRead (bytes.getD 0 0) (bytes.getD 1 0) (bytes.getD 2 0) (bytes.getD 3 0) (bytes.getD 4 0)

def readQuantVal : ByteReader Unit ComponentCodecQuant := do
  let quantVal ← readQuant
  if ¬quantGreaterEqual quantVal 6 then throw ()
  else if ¬quantLessEqual quantVal 15 then throw ()
  else return quantVal

def readQuantVals : Nat → ByteReader Unit (List ComponentCodecQuant)
  | 0 => return []
  | n + 1 => do
    let quantVal ← readQuantVal
    let others ← readQuantVals n
    return quantVal :: others

def readQuantProgVals : Nat → ByteReader Unit (List ComponentQuants)
  | 0 => return []
  | n + 1 => do
    let _quality ← readLE () 1
    let y ← readQuant
    let cb ← readQuant
    let cr ← readQuant
    let others ← readQuantProgVals n
    return ⟨y, cb, cr⟩ :: others

/-- `progressive_process_tiles` up to the decoding: the tiles and what follows, or nothing for a
negative result. -/
def progressiveTileBlocks (header : RegionHeader) (s : List UInt8) :
    Except ProgressiveFault (ProgressiveState × Option (List Nat × List UInt8)) :=
  if s.length < header.tileDataSize then .ok (state, none)
  else do
    let (surface, found) ←
      progressiveReadTiles memory header.numTiles header.tileDataSize s.length state.surface [] 0 s
    let state := { state with surface := surface }
    match found with
    | none => return (state, none)
    | some (tiles, consumed, rest) =>
      if consumed ≠ header.tileDataSize then return (state, none)
      else if tiles.length ≠ header.numTiles then return (state, none)
      else return (state, some (tiles, rest))

def progressiveDecodeRegion (quants : RegionQuants) (state : ProgressiveState) :
    Option (List Nat × List UInt8) → Except ProgressiveFault (ProgressiveState × Option (List UInt8))
  | none => .ok (state, none)
  | some (tiles, rest) => do
    let (surface, statuses) ← progressiveDecodeTiles memory state.threads quants tiles state.surface
    return ({ state with surface := surface, statuses := state.statuses ++ statuses }, some rest)

def progressiveProcessTiles (header : RegionHeader) (quants : RegionQuants) (s : List UInt8) :
    Except ProgressiveFault (ProgressiveState × Option (List UInt8)) := do
  let (state, found) ← progressiveTileBlocks memory state header s
  progressiveDecodeRegion memory quants state found

def progressiveReadRegion (header : RegionHeader) (s : List UInt8) :
    ProgressiveState × Option (RegionQuants × List UInt8) :=
  match (readRects header.numRects).run s with
  | .error _ => (state, none)
  | .ok (rects, rest) =>
    let state := { state with region := { state.region with
      rects := fun i => if i < rects.length then rects.getD i ⟨0, 0, 0, 0⟩ else state.region.rects i } }
    match (readQuantVals header.numQuant).run rest with
    | .error _ => (state, none)
    | .ok (quantVals, rest) =>
      match (readQuantProgVals header.numProgQuant).run rest with
      | .error _ => (state, none)
      | .ok (quantProgVals, rest) => (state, some (⟨quantVals, quantProgVals, header.flags⟩, rest))

/-- What follows in the block, or nothing for a negative result. -/
def progressiveWbRegion (s : List UInt8) :
    Except ProgressiveFault (ProgressiveState × Option (List UInt8)) :=
  match progressiveReadRegionHeader state s with
  | (state, none) => .ok (state, none)
  | (state, some (header, rest)) =>
    -- outside of a frame the region is passed over
    if ¬state.frameBegin ∨ state.frameEnd then .ok (state, some [])
    else
      match progressiveReadRegion state header rest with
      | (state, none) => .ok (state, none)
      | (state, some (quants, rest)) => do
        checkAssertion (state.surface.gridWidth < 2 ^ 16)
        checkAssertion (state.surface.gridHeight < 2 ^ 16)
        progressiveProcessTiles memory state header quants rest

/-! ## Blocks -/

variable (blockLen : Nat)

def progressiveWbSync (s : List UInt8) : Option (List UInt8) :=
  if blockLen ≠ 12 then none
  else
    match readSync.run s with
    | .error _ => none
    | .ok ((magic, version), rest) =>
      if magic ≠ 0xCACCACCA then none else if version ≠ 0x0100 then none else some rest

def progressiveWbContext (s : List UInt8) : Option (List UInt8) :=
  if blockLen ≠ 10 then none
  else
    match (do
      let _ctxId ← readLE () 1
      let tileSize ← readLE () 2
      let _flags ← readLE () 1
      return tileSize : ByteReader Unit Nat).run s with
    | .error _ => none
    | .ok (tileSize, rest) => if tileSize ≠ 64 then none else some rest

def progressiveWbFrameBegin (s : List UInt8) : ProgressiveState × Option (List UInt8) :=
  if blockLen ≠ 12 then (state, none)
  else
    match readFrameBegin.run s with
    | .error _ => (state, none)
    | .ok (_, rest) =>
      if state.frameBegin then (state, none)
      else if state.frameEnd then (state, none)
      else ({ state with frameBegin := true }, some rest)

def progressiveWbFrameEnd (s : List UInt8) : ProgressiveState × Option (List UInt8) :=
  if blockLen ≠ 6 then (state, none)
  else if s.length ≠ 0 then (state, none)
  else ({ state with frameEnd := true }, some s)

def progressiveBlock (blockType blockLen : Nat) (sub : List UInt8) :
    Except ProgressiveFault (ProgressiveState × Option (List UInt8)) :=
  if blockType = PROGRESSIVE_WBT_SYNC then .ok (state, progressiveWbSync blockLen sub)
  else if blockType = PROGRESSIVE_WBT_FRAME_BEGIN then .ok (progressiveWbFrameBegin state blockLen sub)
  else if blockType = PROGRESSIVE_WBT_FRAME_END then .ok (progressiveWbFrameEnd state blockLen sub)
  else if blockType = PROGRESSIVE_WBT_CONTEXT then .ok (state, progressiveWbContext blockLen sub)
  else if blockType = PROGRESSIVE_WBT_REGION then progressiveWbRegion memory state sub
  else .ok (state, none)

def progressiveParseBlock (s : List UInt8) :
    Except ProgressiveFault (ProgressiveState × Option (List UInt8)) :=
  match readBlockHeader.run s with
  | .error _ => .ok (state, none)
  | .ok ((blockType, blockLen), rest) =>
    if blockLen < 6 then .ok (state, none)
    else if rest.length < blockLen - 6 then .ok (state, none)
    else do
      let (state, left) ← progressiveBlock memory state blockType blockLen (rest.take (blockLen - 6))
      -- a block has to be used up
      return (state, if left = some [] then some (rest.drop (blockLen - 6)) else none)

def progressiveParseBlocks :
    Nat → ProgressiveState → List UInt8 → Except ProgressiveFault (ProgressiveState × Bool)
  | 0, state, _ => .ok (state, true)
  | fuel + 1, state, s =>
    if s.length = 0 then .ok (state, true)
    else do
      let (state, rest) ← progressiveParseBlock memory state s
      match rest with
      | none => return (state, false)
      | some rest => progressiveParseBlocks fuel state rest

end Surfaces

/-! ## Drawing -/

/-- The clipping region of `update_tiles`; all sums are `UINT16`. -/
def progressiveClippingRects (region : ProgressiveRects) (nXDst nYDst : Nat) : Region16 :=
  (List.range region.numRects).foldl
    (fun clippingRects i =>
      let rect := region.rects i
      let left := (nXDst + rect.x.toNat) % 2 ^ 16
      let top := (nYDst + rect.y.toNat) % 2 ^ 16
      region16UnionRect clippingRects
        ⟨left, top, (left + rect.width.toNat) % 2 ^ 16, (top + rect.height.toNat) % 2 ^ 16⟩)
    region16Init

def progressiveDrawPieces (surface : ProgressiveSurface) (updateRect : Rectangle16) :
    List Rectangle16 → List Rectangle16 × Bool
  | [] => ([], true)
  | rect :: rects =>
    if rect.left < updateRect.left then ([], false)
    else
      let width := (rect.right + 2 ^ 32 - rect.left) % 2 ^ 32
      let height := (rect.bottom + 2 ^ 32 - rect.top) % 2 ^ 32
      if (rect.left + width) % 2 ^ 32 > surface.width then ([], false)
      else if (rect.top + height) % 2 ^ 32 > surface.height then ([], false)
      else
        let (drawn, all) := progressiveDrawPieces surface updateRect rects
        (rect :: drawn, all)

def progressiveUpdateRect (nXDst nYDst : Nat) (tile : ProgressiveTile) : Rectangle16 :=
  let dl := (nXDst + tile.x) % 2 ^ 32
  let dt := (nYDst + tile.y) % 2 ^ 32
  ⟨dl, dt, (dl + 64) % 2 ^ 16, (dt + 64) % 2 ^ 16⟩

def progressiveDrawTile (surface : ProgressiveSurface) (clippingRects : Region16) (nXDst nYDst : Nat)
    (tile : ProgressiveTile) : List Rectangle16 × Bool :=
  let updateRect := progressiveUpdateRect nXDst nYDst tile
  progressiveDrawPieces surface updateRect (region16IntersectRect clippingRects updateRect).rects

def progressiveUpdateLoop (clippingRects : Region16) (nXDst nYDst : Nat) :
    List Nat → ProgressiveSurface →
    Except ProgressiveFault (ProgressiveSurface × List Rectangle16 × Bool)
  | [], surface => .ok (surface, [], true)
  | index :: indices, surface =>
    match surface.tiles[index]? with
    | none => .error .assertion
    | some tile => do
      checkAssertion ((nXDst + tile.x) % 2 ^ 32 < 2 ^ 16)
      checkAssertion ((nYDst + tile.y) % 2 ^ 32 < 2 ^ 16)
      let pieces := progressiveDrawTile surface clippingRects nXDst nYDst tile
      if ¬pieces.2 then return (surface, pieces.1, false)
      let (surface, others, all) ← progressiveUpdateLoop clippingRects nXDst nYDst indices
        { surface with tiles := surface.tiles.set index { tile with dirty := false } }
      return (surface, pieces.1 ++ others, all)

def progressiveUpdateTiles (surface : ProgressiveSurface) (region : ProgressiveRects)
    (nXDst nYDst : Nat) :
    Except ProgressiveFault (ProgressiveSurface × List Rectangle16 × Bool) :=
  progressiveUpdateLoop
    (progressiveClippingRects region nXDst nYDst) nXDst nYDst surface.updatedTileIndices surface

/-! ## Messages -/

structure ProgressiveContext where
  surfaces : UInt16 → Option ProgressiveSurface
  region : ProgressiveRects
  threads : Option ThreadPool

def progressiveContextNew (threads : Option ThreadPool) : ProgressiveContext :=
  ⟨fun _ => none, ⟨0, fun _ => ⟨0, 0, 0, 0⟩⟩, threads⟩

variable (progressive : ProgressiveContext)

def ProgressiveContext.setSurface (surfaceId : UInt16) (surface : Option ProgressiveSurface) :
    ProgressiveContext :=
  { progressive with surfaces := fun id => if id = surfaceId then surface else progressive.surfaces id }

variable (memory : Nat → Int)
variable (progressive : ProgressiveContext)

def progressiveCreateSurface (surfaceId : UInt16) (width height : Nat) :
    Except ProgressiveFault ProgressiveContext :=
  match progressive.surfaces surfaceId with
  | none => do
    let surface ← progressiveSurfaceNew memory width height
    return progressive.setSurface surfaceId (some surface)
  | some _ => .ok progressive

structure ProgressiveMessage where
  srcData : List UInt8
  (nXDst nYDst : Nat)
  surfaceId : UInt16
  frameId : Nat

def ProgressiveSurface.beginFrame (surface : ProgressiveSurface) (frameId : Nat) : ProgressiveSurface :=
  if surface.frameId ≠ frameId then { surface with frameId := frameId, updatedTileIndices := [] }
    else surface

def progressiveStart (surface : ProgressiveSurface) (message : ProgressiveMessage) :
    ProgressiveState where
  surface := surface.beginFrame message.frameId
  region := progressive.region
  threads := progressive.threads
  frameBegin := false
  frameEnd := false
  statuses := []

def progressiveBlocks (surface : ProgressiveSurface)
    (message : ProgressiveMessage) : Except ProgressiveFault (ProgressiveState × Bool) :=
  progressiveParseBlocks memory message.srcData.length
    (progressiveStart progressive surface message) message.srcData

/-- The end of `progressive_decompress`: a block that is not accepted ends the loop, and the result
is still 1. -/
def progressiveFinish (message : ProgressiveMessage) (state : ProgressiveState)
    (accepted : Bool) : Except ProgressiveFault (ProgressiveContext × Int) :=
  let progressive := { progressive with region := state.region }
  if ¬accepted then .ok (progressive.setSurface message.surfaceId (some state.surface), 1)
  else do
    let (surface, _, all) ← progressiveUpdateTiles state.surface state.region message.nXDst message.nYDst
    return (progressive.setSurface message.surfaceId (some surface), if all then 1 else -2002)

def progressiveDecompress (message : ProgressiveMessage) :
    Except ProgressiveFault (ProgressiveContext × Int) :=
  match progressive.surfaces message.surfaceId with
  | none => .ok (progressive, -1001)
  | some surface => do
    let (state, accepted) ← progressiveBlocks memory progressive surface message
    progressiveFinish progressive message state accepted

end KvmServer.Codec
