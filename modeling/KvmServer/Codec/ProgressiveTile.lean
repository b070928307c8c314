import KvmServer.Codec.Rlgr

/-! # Progressive tiles (`codec/progressive.c`)

The first pass of a tile decodes the coefficients of its three components, a later pass adds bits
to them.  Every shift, assertion and checked cast is looked at.  Colors are left out, and so is the
wavelet transform with extrapolation, which has no checks. -/

namespace KvmServer.Codec
open Lib Winpr

inductive ProgressiveFault where
  /-- A `WINPR_ASSERT` or a checked cast fails. -/
  | assertion
  /-- A value is shifted by 32 bits or more. -/
  | shift
deriving DecidableEq, Repr

def checkAssertion (condition : Prop) [Decidable condition] : Except ProgressiveFault Unit :=
  if condition then .ok () else .error .assertion

def checkShift (amount : Nat) : Except ProgressiveFault Unit :=
    if amount < 32 then .ok () else .error .shift

def IsInt16 (v : Int) : Prop := -32768 ≤ v ∧ v ≤ 32767

instance (v : Int) : Decidable (IsInt16 v) := inferInstanceAs (Decidable (_ ∧ _))

/-! ## Quantisation values -/

inductive RfxBand where
  | HL1 | LH1 | HH1 | HL2 | LH2 | HH2 | HL3 | LH3 | HH3 | LL3
deriving DecidableEq, Repr

abbrev ComponentCodecQuant := RfxBand → UInt8

/-- `progressive_component_codec_quant_read` -/
def quantRead (b0 b1 b2 b3 b4 : UInt8) : ComponentCodecQuant
  | .LL3 => b0 &&& 0x0F
  | .HL3 => b0 >>> 4
  | .LH3 => b1 &&& 0x0F
  | .HH3 => b1 >>> 4
  | .HL2 => b2 &&& 0x0F
  | .LH2 => b2 >>> 4
  | .HH2 => b3 &&& 0x0F
  | .HL1 => b3 >>> 4
  | .LH1 => b4 &&& 0x0F
  | .HH1 => b4 >>> 4

/-- `progressive_rfx_quant_add` -/
def quantAdd (q1 q2 : ComponentCodecQuant) : ComponentCodecQuant := fun band => q1 band + q2 band

variable (q : ComponentCodecQuant)

/-- `progressive_rfx_quant_lsub` -/
def quantLsub (val : UInt8) : ComponentCodecQuant := fun band => q band - val

/-- `progressive_rfx_quant_sub` -/
def quantSub (q1 q2 : ComponentCodecQuant) : ComponentCodecQuant := fun band => q1 band - q2 band

def allBands : List RfxBand := [.HL1, .LH1, .HH1, .HL2, .LH2, .HH2, .HL3, .LH3, .HH3, .LL3]

/-- `progressive_rfx_quant_lcmp_greater_equal` -/
def quantGreaterEqual (val : UInt8) : Bool := allBands.all fun band => q band ≥ val

/-- `progressive_rfx_quant_lcmp_less_equal` -/
def quantLessEqual (val : UInt8) : Bool := allBands.all fun band => q band ≤ val

structure ComponentQuants where
  (y cb cr : ComponentCodecQuant)

def quantProgValFull : ComponentQuants := ⟨fun _ => 0, fun _ => 0, fun _ => 0⟩

/-! ## The first pass -/

/-- What is kept of a component between the passes; the arrays have 4096 elements. -/
structure ProgressiveComponent where
  bitPos : ComponentCodecQuant
  (current sign : Nat → Int)

def rfxDifferentialDecode (offset n : Nat) (buffer : Nat → Int) : Except ProgressiveFault (Nat → Int) :=
  forRange
    (fun i buffer => do
      let tmp := buffer (offset + i) + buffer (offset + i + 1)
      checkAssertion (IsInt16 tmp)
      return fun j => if j = offset + i + 1 then tmp else buffer j)
    n buffer

def bandRange (extrapolate : Bool) : RfxBand → Nat × Nat
  | .HL1 => if extrapolate then (0, 1023) else (0, 1024)
  | .LH1 => if extrapolate then (1023, 1023) else (1024, 1024)
  | .HH1 => if extrapolate then (2046, 961) else (2048, 1024)
  | .HL2 => if extrapolate then (3007, 272) else (3072, 256)
  | .LH2 => if extrapolate then (3279, 272) else (3328, 256)
  | .HH2 => if extrapolate then (3551, 256) else (3584, 256)
  | .HL3 => if extrapolate then (3807, 72) else (3840, 64)
  | .LH3 => if extrapolate then (3879, 72) else (3904, 64)
  | .HH3 => if extrapolate then (3951, 64) else (3968, 64)
  | .LL3 => if extrapolate then (4015, 81) else (4032, 64)

/-- `lShiftC_16s_inplace`: shifts of 16 bits and more are refused, and the refusal is not looked at. -/
def lShiftC16s (v : Int) (val : Nat) : Int :=
    if val = 0 ∨ val ≥ 16 then v else Int.bmod (v * 2 ^ val) (2 ^ 16)

/-- `progressive_rfx_decode_block` for all subbands. -/
def rfxDecodeBlocks (extrapolate : Bool) (shift : ComponentCodecQuant) (buffer : Nat → Int) :
    Nat → Int := fun i =>
  match allBands.find? fun band =>
    (bandRange extrapolate band).1 ≤ i ∧
      i < (bandRange extrapolate band).1 + (bandRange extrapolate band).2 with
  | some band => lShiftC16s (buffer i) (shift band).toNat
  | none => buffer i

/-- `add_16s_inplace`: a sum with saturation. -/
def add16s (a b : Int) : Int := max (-32768) (min 32767 (a + b))

/-! ## The inverse wavelet transform (`codec/rfx_dwt.c`) -/

def dwtEven (low high : Nat → Int) (n : Nat) : Int := low n - (high (n - 1) + high n + 1) / 2

variable (width : Nat)

def dwtOdd (low high : Nat → Int) (n : Nat) : Int :=
  high n * 2 + if n + 1 < width then (dwtEven low high n + dwtEven low high (n + 1)) / 2
    else dwtEven low high n

def dwtLine (low high : Nat → Int) (i : Nat) : Int :=
  if i % 2 = 0 then dwtEven low high (i / 2) else dwtOdd width low high (i / 2)

def dwtHorizontal (buffer : Nat → Int) (i : Nat) : Int :=
  let x := i % (2 * width)
  let y := i / (2 * width)
  if y < width then
    dwtLine width (fun n => buffer (width * width * 3 + y * width + n))
      (fun n => buffer (y * width + n)) x
  else
    dwtLine width (fun n => buffer (width * width + (y - width) * width + n))
      (fun n => buffer (width * width * 2 + (y - width) * width + n)) x

def dwtVertical (idwt : Nat → Int) (i : Nat) : Int :=
  let x := i % (2 * width)
  dwtLine width (fun n => idwt (n * (2 * width) + x))
    (fun n => idwt ((width + n) * (2 * width) + x)) (i / (2 * width))

def DwtFits (values : Nat → Int) : Prop := ∀ i < 4 * width * width, IsInt16 (values i)

instance (width : Nat) (values : Nat → Int) : Decidable (DwtFits width values) := Nat.decidableBallLT _ _

/-- `rfx_dwt_2d_decode_block` at `offset` -/
def rfxDwt2dDecodeBlock (offset width : Nat) (buffer : Nat → Int) :
    Except ProgressiveFault (Nat → Int) := do
  let idwt := dwtHorizontal width fun i => buffer (offset + i)
  checkAssertion (DwtFits width idwt)
  let values := dwtVertical width idwt
  checkAssertion (DwtFits width values)
  return fun i => if offset ≤ i ∧ i < offset + 4 * width * width then values (i - offset) else buffer i

def rfxDwt2dDecode (buffer : Nat → Int) : Except ProgressiveFault (Nat → Int) := do
  let buffer ← rfxDwt2dDecodeBlock 3840 8 buffer
  let buffer ← rfxDwt2dDecodeBlock 3072 16 buffer
  rfxDwt2dDecodeBlock 0 32 buffer

/-- The transform in `progressive_rfx_dwt_2d_decode`, as far as it is checked. -/
def progressiveRfxDwt2dDecode (extrapolate : Bool) (buffer : Nat → Int) : Except ProgressiveFault Unit :=
  if extrapolate then .ok ()
  else do
    let _colors ← rfxDwt2dDecode buffer
    return ()

/-- `progressive_rfx_decode_component`; nothing is returned for a negative status. -/
def rfxDecodeComponent (shift : ComponentCodecQuant) (data : List UInt8) (coeffDiff extrapolate : Bool)
    (component : ProgressiveComponent) : Except ProgressiveFault (Option ProgressiveComponent) :=
  match rfxRlgrDecode .rlgr1 data (List.replicate 4096 0) with
  | .error _ => .error .assertion
  | .ok (status, output) =>
    if status < 0 then .ok none
    else do
      let buffer := fun i => output.getD i 0
      let sign := buffer
      -- the differences are undone before LL3 is shifted
      let buffer ← rfxDifferentialDecode (bandRange extrapolate .LL3).1
        ((bandRange extrapolate .LL3).2 - 1) buffer
      let buffer := rfxDecodeBlocks extrapolate shift buffer
      let current := if coeffDiff then fun i => add16s (buffer i) (component.current i) else buffer
      progressiveRfxDwt2dDecode extrapolate current
      return some { component with current := current, sign := sign }

/-! ## Upgrades -/

/-- `RFX_PROGRESSIVE_UPGRADE_STATE` without `nonLL`. -/
structure UpgradeState where
  (srl raw : WBitStream)
  (kp nz : Nat)
  mode : Bool

def nextBit (bs : WBitStream) : Bool := bs.accumulator &&& 0x80000000 ≠ 0

def srlMagnitude : Nat → Nat → WBitStream → Nat × WBitStream
  | 0, mag, bs => (mag, bs)
  | n + 1, mag, bs =>
      if nextBit bs then (mag, bitStreamShift bs 1) else srlMagnitude n (mag + 1) (bitStreamShift bs 1)

variable (state : UpgradeState)

def srlReadUnary (numBits : Nat) : Except ProgressiveFault (UpgradeState × Int) := do
  let sign := nextBit state.srl
  let srl := bitStreamShift state.srl 1
  let kp := if state.kp < 6 then 0 else state.kp - 6
  if numBits = 1 then
    return ({ state with srl := srl, kp := kp, mode := false }, if sign then -1 else 1)
  checkShift numBits
  let max := 2 ^ numBits - 1
  let (mag, srl) := srlMagnitude (max - 1) 1 srl
  let mag := if mag > 32767 then 32767 else mag
  return ({ state with srl := srl, kp := kp, mode := false }, if sign then -mag else mag)

/-- `progressive_rfx_srl_read` -/
def srlRead (numBits : Nat) : Except ProgressiveFault (UpgradeState × Int) := do
  if state.nz ≠ 0 then return ({ state with nz := state.nz - 1 }, 0)
  let k := state.kp / 8
  if state.mode then srlReadUnary state numBits
  else
    let bit := nextBit state.srl
    let srl := bitStreamShift state.srl 1
    if ¬bit then
      checkShift k
      let kp := if state.kp + 4 > 80 then 80 else state.kp + 4
      return ({ state with srl := srl, kp := kp, nz := 2 ^ k - 1 }, 0)
    else if k = 0 then srlReadUnary { state with srl := srl } numBits
    else
      checkShift k
      let nz := srl.accumulator >>> (32 - k) &&& (2 ^ k - 1)
      checkAssertion (IsInt16 nz)
      let state := { state with srl := bitStreamShift srl k }
      if nz ≠ 0 then return ({ state with nz := nz - 1, mode := true }, 0)
      else srlReadUnary state numBits

def rawRead (numBits : Nat) : Except ProgressiveFault (UpgradeState × Int) := do
  checkShift numBits
  let value := state.raw.accumulator >>> (32 - numBits) &&& (2 ^ numBits - 1)
  return ({ state with raw := bitStreamShift state.raw numBits }, Int.bmod value (2 ^ 16))

def upgradeInput (nonLL : Bool) (numBits : Nat) (state : UpgradeState) (sign : Int) :
    Except ProgressiveFault (UpgradeState × Int × Int) := do
  if ¬nonLL then
    let (state, input) ← rawRead state numBits
    return (state, input, sign)
  else if sign > 0 then
    let (state, input) ← rawRead state numBits
    return (state, input, sign)
  else if sign < 0 then
    let (state, input) ← rawRead state numBits
    return (state, -input, sign)
  else
    let (state, input) ← srlRead state numBits
    checkAssertion (IsInt16 input)
    return (state, input, input)

def upgradedValue (coefficient input : Int) (shift : Nat) : Int :=
  Int.bmod (coefficient + Int.bmod (input * 2 ^ shift) (2 ^ 32)) (2 ^ 32)

def upgradeCoefficient (nonLL : Bool) (shift numBits : Nat) (index : Nat)
    (s : UpgradeState × ProgressiveComponent) :
    Except ProgressiveFault (UpgradeState × ProgressiveComponent) := do
  let (state, component) := s
  let (state, input, sign) ← upgradeInput nonLL numBits state (component.sign index)
  checkShift shift
  let ival := upgradedValue (component.current index) input shift
  checkAssertion (IsInt16 ival)
  return (state,
    { component with
      current := fun i => if i = index then ival else component.current i
      sign := fun i => if i = index then sign else component.sign i })

/-- `progressive_rfx_upgrade_block` for a subband; its ranges are always those with extrapolation. -/
def upgradeBlock (shift numBits : ComponentCodecQuant) (s : UpgradeState × ProgressiveComponent)
    (band : RfxBand) :
    Except ProgressiveFault (UpgradeState × ProgressiveComponent) :=
  if (numBits band).toNat = 0 then .ok s
  else
    forRange
      (fun i => upgradeCoefficient (band ≠ .LL3) (shift band).toNat (numBits band).toNat
        ((bandRange true band).1 + i))
      (bandRange true band).2 s

/-- `progressive_rfx_upgrade_state_finish` for one of the streams. -/
def padToByte (bs : WBitStream) : WBitStream :=
  if bs.position % 8 ≠ 0 then bitStreamShift bs (8 - bs.position % 8) else bs

def attachBytes (data : List UInt8) : WBitStream :=
  bitStreamFetch (bitStreamAttach bitStreamNew (listMem 0 data) data.length)

def upgradeFinish (srlLen rawLen : Nat) : Bool :=
  let raw := padToByte state.raw
  let srl := padToByte state.srl
  let srl := if bitStreamGetRemainingLength srl = 8 then bitStreamShift srl 8 else srl
  let aRawLen := (raw.position + 7) % 2 ^ 32 / 8
  let aSrlLen := (srl.position + 7) % 2 ^ 32 / 8
  aRawLen = rawLen ∧ aSrlLen = srlLen

def upgradeStart (srlData rawData : List UInt8) : UpgradeState :=
    ⟨attachBytes srlData, attachBytes rawData, 8, 0, false⟩

/-- `progressive_rfx_upgrade_component`, and whether the streams were used up; otherwise the status
is negative. -/
def upgradeComponent (shift numBits : ComponentCodecQuant) (srlData rawData : List UInt8)
    (extrapolate : Bool)
    (component : ProgressiveComponent) : Except ProgressiveFault (ProgressiveComponent × Bool) := do
  let (state, component) ← allBands.foldlM (upgradeBlock shift numBits)
    (upgradeStart srlData rawData, component)
  if ¬upgradeFinish state srlData.length rawData.length then return (component, false)
  progressiveRfxDwt2dDecode extrapolate component.current
  return (component, true)

/-! ## Tiles -/

inductive TileBlock where
  | simple
  | first
  | upgrade
deriving DecidableEq, Repr

structure ProgressiveTile where
  blockType : TileBlock
  (quantIdxY quantIdxCb quantIdxCr xIdx yIdx flags quality : Nat)
  dirty : Bool
  (x y : Nat)
  (yData cbData crData ySrlData yRawData cbSrlData cbRawData crSrlData crRawData : List UInt8)
  (yComponent cbComponent crComponent : ProgressiveComponent)

structure RegionQuants where
  quantVals : List ComponentCodecQuant
  quantProgVals : List ComponentQuants
  flags : Nat

variable (region : RegionQuants)
variable (tile : ProgressiveTile)

def tileQuants : Option (ComponentQuants × ComponentQuants) := do
  let quantY ← region.quantVals[tile.quantIdxY]?
  let quantCb ← region.quantVals[tile.quantIdxCb]?
  let quantCr ← region.quantVals[tile.quantIdxCr]?
  let quantProg ← if tile.quality = 0xFF then some quantProgValFull
    else region.quantProgVals[tile.quality]?
  return (⟨quantY, quantCb, quantCr⟩, quantProg)

def tileShift (quant quantProg : ComponentCodecQuant) : ComponentCodecQuant :=
    quantLsub (quantAdd quant quantProg) 1

/-- `progressive_decompress_tile_first`; the tile and the status. -/
def decompressTileFirst : Except ProgressiveFault (ProgressiveTile × Int) :=
  match tileQuants region tile with
  | none => .ok (tile, -1)
  | some (quant, progress) => do
    let diff := tile.flags &&& 1 ≠ 0
    let extrapolate := region.flags &&& 1 ≠ 0
    let tile := { tile with
      yComponent := { tile.yComponent with bitPos := quantAdd quant.y progress.y }
      cbComponent := { tile.cbComponent with bitPos := quantAdd quant.cb progress.cb }
      crComponent := { tile.crComponent with bitPos := quantAdd quant.cr progress.cr } }
    let some y ← rfxDecodeComponent
      (tileShift quant.y progress.y) tile.yData diff extrapolate tile.yComponent
      | return (tile, -1)
    let tile := { tile with yComponent := y }
    let some cb ← rfxDecodeComponent
      (tileShift quant.cb progress.cb) tile.cbData diff extrapolate tile.cbComponent
      | return (tile, -1)
    let tile := { tile with cbComponent := cb }
    let some cr ← rfxDecodeComponent
      (tileShift quant.cr progress.cr) tile.crData diff extrapolate tile.crComponent
      | return (tile, -1)
    return ({ tile with crComponent := cr }, 0)

/-- A component of an upgrade: the number of bits is the way from the old position to the new one. -/
def decompressUpgrade (quant progress : ComponentCodecQuant) (srlData rawData : List UInt8)
    (extrapolate : Bool)
    (bitPos : ComponentCodecQuant) (component : ProgressiveComponent) :
    Except ProgressiveFault (ProgressiveComponent × Bool) :=
  upgradeComponent (tileShift quant progress)
    (quantSub bitPos (quantAdd quant progress)) srlData rawData extrapolate component

/-- `progressive_decompress_tile_upgrade`; the bit positions of all components are stored before the
first is read. -/
def decompressTileUpgrade : Except ProgressiveFault (ProgressiveTile × Int) :=
  match tileQuants region tile with
  | none => .ok (tile, -1)
  | some (quant, progress) => do
    let extrapolate := region.flags &&& 1 ≠ 0
    let old := tile
    let tile := { tile with
      yComponent := { tile.yComponent with bitPos := quantAdd quant.y progress.y }
      cbComponent := { tile.cbComponent with bitPos := quantAdd quant.cb progress.cb }
      crComponent := { tile.crComponent with bitPos := quantAdd quant.cr progress.cr } }
    let (y, used) ←
      decompressUpgrade quant.y progress.y tile.ySrlData tile.yRawData extrapolate
        old.yComponent.bitPos tile.yComponent
    let tile := { tile with yComponent := y }
    if ¬used then return (tile, -1)
    let (cb, used) ←
      decompressUpgrade quant.cb progress.cb tile.cbSrlData tile.cbRawData
        extrapolate old.cbComponent.bitPos
        tile.cbComponent
    let tile := { tile with cbComponent := cb }
    if ¬used then return (tile, -1)
    let (cr, used) ←
      decompressUpgrade quant.cr progress.cr tile.crSrlData tile.crRawData
        extrapolate old.crComponent.bitPos
        tile.crComponent
    let tile := { tile with crComponent := cr }
    if ¬used then return (tile, -1)
    return (tile, 0)

/-- `progressive_process_tiles_tile_work_callback`, with the status it drops. -/
def decompressTile : Except ProgressiveFault (ProgressiveTile × Int) :=
  match tile.blockType with
  | .simple => decompressTileFirst region tile
  | .first => decompressTileFirst region tile
  | .upgrade => decompressTileUpgrade region tile

end KvmServer.Codec
