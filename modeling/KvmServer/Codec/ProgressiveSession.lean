import KvmServer.Codec.Progressive

/-! # What the progressive decoder reports, and where it stores tiles

The result of a message says nothing about its blocks and its tiles.  The index of a tile in the
cache of the surface is made of its coordinates, which are not compared with the grid. -/

namespace KvmServer.Codec
open Lib List

/-! ## What the result says -/

section Results
variable {memory : Nat → Int} {progressive progressive' : ProgressiveContext}
  {message : ProgressiveMessage}
  {rc : Int}

def MessageDecodes (memory : Nat → Int) (progressive : ProgressiveContext)
    (message : ProgressiveMessage) : Prop :=
  ∃ surface state, progressive.surfaces message.surfaceId = some surface ∧
    progressiveBlocks memory progressive surface message = .ok (state, true) ∧
      ∀ status ∈ state.statuses, 0 ≤ status

def DrawingFails (memory : Nat → Int) (progressive : ProgressiveContext)
    (message : ProgressiveMessage) : Prop :=
  ∃ surface state surface' drawn, progressive.surfaces message.surfaceId = some surface ∧
    progressiveBlocks memory progressive surface message = .ok (state, true) ∧
    progressiveUpdateTiles state.surface state.region message.nXDst message.nYDst =
      .ok (surface', drawn, false)

/-- The result is positive only for a message that decodes, and negative for one that does not. -/
def ReportsFailure (memory : Nat → Int) (progressive : ProgressiveContext)
    (message : ProgressiveMessage) (rc : Int) : Prop :=
  (0 < rc → MessageDecodes memory progressive message) ∧
    (¬MessageDecodes memory progressive message → rc < 0)

/-- A message for a known surface fails exactly when drawing fails. -/
theorem progressiveDecompress_result {surface : ProgressiveSurface}
    (got : progressive.surfaces message.surfaceId = some surface)
    (res : progressiveDecompress memory progressive message = .ok (progressive', rc)) :
    rc = -2002 ∧ DrawingFails memory progressive message ∨ rc = 1 ∧
    ¬DrawingFails memory progressive message := by
  rw [progressiveDecompress, got] at res
  obtain ⟨⟨state, acc⟩, blocks, finish⟩ := bind_ok_iff.mp res
  cases acc with
  | false =>
    cases finish
    refine .inr ⟨rfl, ?_⟩
    rintro ⟨surf', state', _, _, got', blocks', -⟩
    rw [got] at got'
    cases got'
    rw [blocks] at blocks'
    cases blocks'
  | true =>
    obtain ⟨⟨drawnSurf, drawn, all⟩, draws, last⟩ := bind_ok_iff.mp finish
    cases all with
    | false =>
      cases last
      exact .inl ⟨rfl, surface, state, drawnSurf, drawn, got, blocks, draws⟩
    | true =>
      cases last
      refine .inr ⟨rfl, ?_⟩
      rintro ⟨surf', state', _, _, got', blocks', failed⟩
      rw [got] at got'
      cases got'
      rw [blocks] at blocks'
      cases blocks'
      rw [draws] at failed
      cases failed

/-- What goes wrong with a message is reported exactly if it has no surface or does not draw; what
is wrong with its blocks and tiles never is. -/
theorem progressive_reports_failure_iff
    (result : progressiveDecompress memory progressive message = .ok (progressive', rc)) :
    ReportsFailure memory progressive message rc ↔
      progressive.surfaces message.surfaceId = none ∨ MessageDecodes memory progressive message ∨
        DrawingFails memory progressive message := by
  cases got : progressive.surfaces message.surfaceId with
  | none =>
    rw [progressiveDecompress, got] at result
    cases result
    exact iff_of_true ⟨nofun, fun _ => by decide⟩ (.inl rfl)
  | some surface =>
    have missing : ¬(some surface = none) := by simp
    rw [or_iff_right missing, ReportsFailure]
    rcases progressiveDecompress_result got result with ⟨rfl, failed⟩ | ⟨rfl, draws⟩
    · exact iff_of_true ⟨nofun, fun _ => by decide⟩ (.inr failed)
    rw [or_iff_left draws]
    constructor
    · exact fun reports => reports.1 (by decide)
    · exact fun decodes => ⟨fun _ => decodes, fun failed => absurd decodes failed⟩

/-- The last item is the first to run; two items for one tile fail an assertion. -/
def lastFirst : ThreadPool := ⟨reverse, reverse_perm, fun _ => .error .assertion⟩

/-- A frame with a region of two tiles, which name a quantisation value that the region does not have. -/
def twoTiles : ProgressiveMessage where
  srcData :=
    [0xC1, 0xCC, 12, 0, 0, 0, 0, 0, 0, 0, 1, 0,
      0xC4, 0xCC, 81, 0, 0, 0, 64, 1, 0, 1, 0, 0, 2, 0, 50, 0, 0, 0, 0, 0, 0, 0, 1, 0, 1, 0,
      0x66, 0x66, 0x66, 0x66, 0x66,
      0xC5, 0xCC, 25, 0, 0, 0, 1, 0, 0, 0, 0, 0, 0, 0, 1, 0, 1, 0, 1, 0, 0, 0, 7, 8, 9,
      0xC5, 0xCC, 25, 0, 0, 0, 1, 0, 0, 1, 0, 0, 0, 0, 1, 0, 1, 0, 1, 0, 0, 0, 7, 8, 9]
  nXDst := 0
  nYDst := 0
  surfaceId := 0
  frameId := 1

/-- Both tiles fail in their work items, and the result is 1. -/
theorem progressive_reports_failure_two_tiles : ∃ progressive progressive',
    progressiveCreateSurface (fun _ => 0) (progressiveContextNew (some lastFirst)) 0 64 1 =
    .ok progressive ∧
      progressiveDecompress (fun _ => 0) progressive twoTiles = .ok (progressive', 1) ∧
      ¬ReportsFailure (fun _ => 0) progressive twoTiles 1 := by
  let grid : ProgressiveSurface := ⟨64, 1, 2, 1, 2, replicate 2 (progressiveTileNew fun _ => 0), 0, []⟩
  let progressive := (progressiveContextNew (some lastFirst)).setSurface 0 (some grid)
  have decoded : ((progressiveBlocks (fun _ => 0) progressive grid twoTiles).toOption.map fun state =>
      state.1.statuses) = some [-1, -1] := by decide +kernel
  have finished :
      (progressiveDecompress (fun _ => 0) progressive twoTiles).toOption.map Prod.snd = some 1 := by
    decide +kernel
  rcases result : progressiveDecompress (fun _ => 0) progressive twoTiles with _ | ⟨progressive', rc⟩
  · rw [result] at finished
    cases finished
  rw [result] at finished
  cases finished
  refine ⟨progressive, progressive', rfl, result, ?_⟩
  refine (progressive_reports_failure_iff result).not.mpr ?_
  rintro (missing | ⟨surface, state, found, blocks, good⟩ | draws)
  · cases missing
  · cases found
    rw [blocks] at decoded
    have statuses : state.statuses = [-1, -1] := Option.some.inj decoded
    have failing := good (-1) (by rw [statuses]; decide)
    omega
  · obtain ⟨impossible, -⟩ | ⟨-, none⟩ := progressiveDecompress_result rfl result
    · cases impossible
    · exact none draws

/-- One byte is no block, and the result is 1. -/
theorem progressive_failure_not_reported : ∃ progressive progressive',
    progressiveCreateSurface (fun _ => 0) (progressiveContextNew none) 0 1 1 = .ok progressive ∧
      progressiveDecompress (fun _ => 0) progressive ⟨[0xC1], 0, 0, 0, 1⟩ = .ok (progressive', 1) ∧
      ¬ReportsFailure (fun _ => 0) progressive ⟨[0xC1], 0, 0, 0, 1⟩ 1 := by
  refine ⟨_, _, rfl, rfl, ?_⟩
  rintro ⟨reports, -⟩
  obtain ⟨_, _, got, blocks, -⟩ := reports (by decide)
  cases got
  cases blocks

end Results

/-! ## Where tiles are stored -/

section Storage
variable (memory : Nat → Int) {gridWidth gridHeight : Nat}

structure TileCall (gridWidth gridHeight : Nat) where
  surface : ProgressiveSurface
  grid : surface.gridWidth = gridWidth
  cache : 0 < surface.gridSize
  (usedTiles numTiles : Nat)
  fields : TileFields
  xIdx : fields.xIdx < 2 ^ 16
  yIdx : fields.yIdx < 2 ^ 16

variable (call : TileCall gridWidth gridHeight)

/-- Where the tile is stored, if it is accepted; larger grids fail the assertions of
`progressive_wb_region`. -/
def TileCall.storage : Option Nat :=
  if gridWidth < 2 ^ 16 ∧ gridHeight < 2 ^ 16 then
    match progressiveSurfaceTileReplace memory call.surface call.usedTiles call.numTiles call.fields with
    | .ok (_, zIdx) => zIdx
    | .error _ => none
  else none

def TileCall.index : Nat := call.fields.yIdx * gridWidth + call.fields.xIdx

def TileCall.Inside : Prop := call.fields.xIdx < gridWidth ∧ call.fields.yIdx < gridHeight

def TileCall.Refused : Prop :=
  call.surface.tiles.length ≤ call.index ∨ call.numTiles ≤ call.usedTiles ∨
    2 ^ 16 ≤ gridWidth ∨ 2 ^ 16 ≤ gridHeight

/-- Accepted tiles share their storage exactly if they have the same coordinates, which are inside
the grid. -/
structure TilesSeparate (calls : List (TileCall gridWidth gridHeight)) : Prop where
  shared : ∀ a ∈ calls, ∀ b ∈ calls, ∀ i j, a.storage memory = some i → b.storage memory = some j →
    (i = j ↔ a.fields.xIdx = b.fields.xIdx ∧ a.fields.yIdx = b.fields.yIdx)
  outside : ∀ a ∈ calls, ¬a.Inside → a.storage memory = none

theorem touchTile_ok (surface : ProgressiveSurface) (cache : 0 < surface.gridSize) (zIdx : Nat)
    (t : ProgressiveTile) : ∃ surface', progressiveTouchTile memory surface zIdx t = .ok surface' := by
  rw [progressiveTouchTile, progressiveTileRoom, progressiveAllocateTileCache,
    checkAssertion, if_pos cache]
  split
  all_goals exact ⟨_, rfl⟩

theorem tileReplace_storage {surface : ProgressiveSurface} (cache : 0 < surface.gridSize)
    (usedTs numTiles : Nat) (fields : TileFields) {zIdx : Nat}
    (idx : (fields.yIdx * surface.gridWidth + fields.xIdx) % 2 ^ 32 = zIdx) :
    ∃ surf', progressiveSurfaceTileReplace memory surface usedTs numTiles fields =
      .ok (surf', if zIdx < surface.tiles.length ∧ usedTs < numTiles then some zIdx else none) := by
  rw [progressiveSurfaceTileReplace, idx]
  cases got : surface.tiles[zIdx]? with
  | none =>
    rw [if_neg (by grind)]
    exact ⟨_, rfl⟩
  | some t =>
    have put : zIdx < surface.tiles.length := (List.getElem?_eq_some_iff.mp got).1
    dsimp only
    split
    · rw [if_neg (by omega)]
      exact ⟨_, rfl⟩
    have acc : zIdx < surface.tiles.length ∧ usedTs < numTiles := ⟨put, by omega⟩
    rw [if_pos acc]
    split
    · exact ⟨_, rfl⟩
    obtain ⟨surf', touched⟩ :=
      touchTile_ok memory
        { surface with tiles := surface.tiles.set zIdx (fields.store t) } cache zIdx (fields.store t)
    exact ⟨surf', by rw [touched]; rfl⟩

theorem TileCall.index_lt (lt : gridWidth < 2 ^ 16) : call.index < 2 ^ 32 := by
  have row : call.fields.yIdx * gridWidth ≤ (2 ^ 16 - 1) * (2 ^ 16 - 1) :=
    Nat.mul_le_mul (Nat.le_pred_of_lt call.yIdx) (Nat.le_pred_of_lt lt)
  have col := call.xIdx
  rw [TileCall.index]
  omega

open Classical in
theorem TileCall.storage_eq : call.storage memory = if call.Refused then none else some call.index := by
  unfold TileCall.storage
  split
  next lt =>
    have all : (call.fields.yIdx * call.surface.gridWidth + call.fields.xIdx) % 2 ^ 32 = call.index := by
      rw [call.grid]
      exact Nat.mod_eq_of_lt (call.index_lt lt.1)
    obtain ⟨_, reply⟩ :=
      tileReplace_storage memory call.cache call.usedTiles call.numTiles call.fields all
    rw [reply]
    grind [TileCall.Refused]
  next => rw [if_pos (by unfold TileCall.Refused; omega)]

theorem TileCall.Inside.index {call : TileCall gridWidth gridHeight} (inside : call.Inside) :
    call.index / gridWidth = call.fields.yIdx ∧ call.index % gridWidth = call.fields.xIdx := by
  have pos := Nat.zero_lt_of_lt inside.1
  rw [TileCall.index, mul_comm]
  simp [Nat.mul_add_div pos, Nat.div_eq_of_lt inside.1, Nat.mod_eq_of_lt inside.1]

/-- Two tiles share a slot only when an index lies outside the grid and is not refused. -/
theorem progressive_tiles_separate_iff (calls : List (TileCall gridWidth gridHeight)) :
    TilesSeparate memory calls ↔ ∀ call ∈ calls, call.Inside ∨ call.Refused := by
  constructor
  · intro separate call mem
    have outside := separate.outside call mem
    grind [TileCall.storage_eq]
  intro _
  refine ⟨?_, ?_⟩
  · -- inside of the grid, quotient and remainder of the index are the coordinates
    intro a _ b _ i j aPut bPut
    rw [TileCall.storage_eq] at aPut bPut
    grind [TileCall.Inside.index, TileCall.index]
  intro a mem outside
  grind [TileCall.storage_eq]

/-- One column and two rows: the tile at (1, 0) is outside, and stored where (0, 1) is. -/
theorem progressive_tiles_not_separate : ∃ calls : List (TileCall 1 2),
    (∀ call ∈ calls, progressiveSurfaceNew (fun _ => 0) 1 65 = .ok call.surface) ∧
      calls.map (·.storage fun _ => 0) = [some 1, some 1] ∧ ¬TilesSeparate (fun _ => 0) calls := by
  let surface : ProgressiveSurface :=
    ⟨1, 65, 1, 2, 2, replicate 2 (progressiveTileNew fun _ => 0), 0, []⟩
  let call (xIdx yIdx : Fin 2) : TileCall 1 2 := ⟨surface, rfl, by decide, 0, 1,
    ⟨.simple, 0, 0, 0, xIdx, yIdx, 0, 0, ([], [], []), ([], [], []), ([], [], [])⟩,
    by dsimp only; omega, by dsimp only; omega⟩
  refine ⟨[call 0 1, call 1 0], by simp [call]; rfl, rfl, ?_⟩
  intro separate
  cases separate.outside (call 1 0) (.tail _ (.head _)) (by simp [TileCall.Inside, call])

end Storage

end KvmServer.Codec
