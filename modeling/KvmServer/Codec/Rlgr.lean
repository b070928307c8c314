import KvmServer.Codec.BitStream
import KvmServer.Winpr.Stream

/-! # The RLGR decoder (`codec/rfx_rlgr.c`)

Run-length mode codes a run of zeros and the value after it, Golomb-Rice mode one value (RLGR1) or
two (RLGR3).  A failed assertion or checked cast ends the program; a `break` out of the loop is
`none`. -/

namespace KvmServer.Codec
open Lib Winpr

def KPMAX : Nat := 80
def LSGR : Nat := 3
def UP_GR : Nat := 4
def DN_GR : Nat := 6
def UQ_GR : Nat := 3
def DQ_GR : Nat := 3

inductive RlgrMode where
  | rlgr1
  | rlgr3
deriving DecidableEq, Repr

structure RlgrParams where
  (k kp kr krp : Nat)
deriving DecidableEq, Repr

def rlgrInit : RlgrParams := { k := 1, kp := 1 <<< LSGR, kr := 1, krp := 1 <<< LSGR }

def castInt16 (v : Int) : Except Stop Int := if -32768 ≤ v ∧ v ≤ 32767 then .ok v else .error .assertion

/-! ## Leading bits -/

/-- One halving step of `lzcnt_s`, with its assertion. -/
def lzcntHalve (n x s : Nat) : Except Stop (Nat × Nat) :=
  if x >>> s ≠ 0 then if s ≤ n then .ok (n - s, x >>> s) else .error .assertion
  else .ok (n, x)

/-- The portable branch of `lzcnt_s`. -/
def lzcntS (x : Nat) : Except Stop Nat :=
  if x = 0 then .ok 32
  else do
    let (n, x) ← lzcntHalve 32 x 16
    let (n, x) ← lzcntHalve n x 8
    let (n, x) ← lzcntHalve n x 4
    let (n, x) ← lzcntHalve n x 2
    if x >>> 1 ≠ 0 then if 2 ≤ n then .ok (n - 2) else .error .assertion
    else if x ≤ n then .ok (n - x) else .error .assertion

def rlgrLeading (bit : Bool) (bs : WBitStream) : Except Stop Nat := do
  let count ← lzcntS (if bit then 2 ^ 32 - 1 - bs.accumulator else bs.accumulator)
  let nbits := bitStreamGetRemainingLength bs
  .ok (if count > nbits then nbits else count)

def rlgrCountMore (bit : Bool) : Nat → Nat → Nat → WBitStream → Except Stop (Nat × WBitStream)
  | 0, _, vk, bs => .ok (vk, bs)
  | fuel + 1, count, vk, bs =>
    if count = 32 ∧ 0 < bitStreamGetRemainingLength bs then do
      let bs := bitStreamShift32 bs
      let count ← rlgrLeading bit bs
      if count + vk ≤ 2 ^ 32 - 1 then rlgrCountMore bit fuel count (vk + count) bs else .error .assertion
    else .ok (vk, bs)

def rlgrCount (bit : Bool) (bs : WBitStream) : Except Stop (Nat × WBitStream) := do
  let count ← rlgrLeading bit bs
  let (vk, bs) ← rlgrCountMore bit (bitStreamGetRemainingLength bs) count count bs
  .ok (vk, bitStreamShift bs (vk % 32))

def rlgrReadBits (n : Nat) (bs : WBitStream) : Nat × WBitStream :=
  (if 0 < n then bs.accumulator >>> (32 - n) &&& (2 ^ n - 1) else 0, bitStreamShift bs n)

/-! ## Parameters -/

def raiseParam (param delta : Nat) : Nat := if param + delta > KPMAX then KPMAX else param + delta

def lowerParam (param delta : Nat) : Nat := if param > delta then param - delta else 0

variable (p : RlgrParams)

def RlgrParams.withKp (kp : Nat) : RlgrParams := { p with kp := kp, k := kp >>> LSGR }

def RlgrParams.withKrp (krp : Nat) : RlgrParams := { p with krp := krp, kr := krp >>> LSGR }

/-- `krp` follows the length of the unary part; a length of one leaves it alone.  The sum is an
`UINT32`. -/
def rlgrUpdateKr (vk : Nat) : RlgrParams :=
  if vk = 0 then p.withKrp (lowerParam p.krp 2)
  else if vk ≠ 1 then
    let krp := (p.krp + vk) % 2 ^ 32
    p.withKrp (if krp > KPMAX then KPMAX else krp)
  else p

/-- `while (vk--)`: every zero bit stands for `1 << k` zeros. -/
def rlgrRun : Nat → RlgrParams → Nat → Nat × RlgrParams
  | 0, p, run => (run, p)
  | vk + 1, p, run => rlgrRun vk (p.withKp (raiseParam p.kp UP_GR)) (run + 1 <<< p.k)

/-! ## The two modes -/

/-- Behind the leading ones of a Golomb-Rice code come a zero and `kr` bits.  `code` is an `UINT16`. -/
def rlgrFinishCode (vk : Nat) (bs : WBitStream) : Option (Nat × RlgrParams × WBitStream) :=
  if bitStreamGetRemainingLength bs < 1 then none
  else
    let bs := bitStreamShift bs 1
    if bitStreamGetRemainingLength bs < p.kr then none
    else
      let (code, bs) := rlgrReadBits p.kr bs
      some ((code ||| vk <<< p.kr) % 2 ^ 16, rlgrUpdateKr p vk, bs)

def rlgrReadCode (bs : WBitStream) : Except Stop (Option (Nat × RlgrParams × WBitStream)) := do
  let (vk, bs) ← rlgrCount true bs
  .ok (rlgrFinishCode p vk bs)

structure RlgrState where
  params : RlgrParams
  bs : WBitStream
  output : List Int

def rlgrWriteZeros (dstSize run : Nat) (output : List Int) : List Int :=
  output ++ List.replicate (if output.length + run > dstSize then dstSize - output.length else run) 0

def rlgrWrite (dstSize : Nat) (mag : Int) (output : List Int) : List Int :=
  if output.length < dstSize then output ++ [mag] else output

/-- The value after a run: the sign is applied behind the cast. -/
def rlgrRunMagnitude (sign : Bool) (code : Nat) : Except Stop Int := do
  let mag ← castInt16 (code + 1 : Nat)
  .ok (if sign then mag * -1 else mag)

def rlgrWriteRun (dstSize run : Nat) (sign : Bool) (output : List Int) :
    Option (Nat × RlgrParams × WBitStream) → Except Stop (Option RlgrState)
  | none => .ok none
  | some (code, p, bs) => do
    let mag ← rlgrRunMagnitude sign code
    let output := rlgrWrite dstSize mag (rlgrWriteZeros dstSize run output)
    .ok (some ⟨p.withKp (lowerParam p.kp DN_GR), bs, output⟩)

def rlgrRunValue (dstSize run : Nat) (p : RlgrParams) (bs : WBitStream) (output : List Int) :
    Except Stop (Option RlgrState) :=
  if bitStreamGetRemainingLength bs < 1 then .ok none
  else do
    let sign := decide (bs.accumulator &&& 0x80000000 ≠ 0)
    let found ← rlgrReadCode p (bitStreamShift bs 1)
    rlgrWriteRun dstSize run sign output found

def rlgrFinishRun (dstSize vk : Nat) (p : RlgrParams) (bs : WBitStream) (output : List Int) :
    Except Stop (Option RlgrState) :=
  if bitStreamGetRemainingLength bs < 1 then .ok none
  else
    let bs := bitStreamShift bs 1
    let (run, p) := rlgrRun vk p 0
    if bitStreamGetRemainingLength bs < p.k then .ok none
    else
      let (low, bs) := rlgrReadBits p.k bs
      rlgrRunValue dstSize (run + low) p bs output

def rlgrRunMode (dstSize : Nat) (s : RlgrState) : Except Stop (Option RlgrState) := do
  let (vk, bs) ← rlgrCount false s.bs
  rlgrFinishRun dstSize vk s.params bs s.output

/-- `code = 2 * mag - sign`; the sums are `UINT32`. -/
def rlgrUnfold (code : Nat) : Except Stop Int :=
  if code &&& 1 ≠ 0 then do
    let mag ← castInt16 (((code + 1) % 2 ^ 32) >>> 1 : Nat)
    .ok (mag * -1)
  else castInt16 (code >>> 1 : Nat)

def rlgrSingleParams (code : Nat) : RlgrParams :=
  if code = 0 then p.withKp (raiseParam p.kp UQ_GR) else p.withKp (lowerParam p.kp DQ_GR)

def rlgrSingle (dstSize code : Nat) (p : RlgrParams) (bs : WBitStream) (output : List Int) :
    Except Stop (Option RlgrState) := do
  let mag ← (if code = 0 then .ok 0 else rlgrUnfold code : Except Stop Int)
  .ok (some ⟨rlgrSingleParams p code, bs, rlgrWrite dstSize mag output⟩)

def rlgrPairParams (val1 val2 : Nat) : RlgrParams :=
  if val1 ≠ 0 ∧ val2 ≠ 0 then p.withKp (lowerParam p.kp (2 * DQ_GR))
  else if val1 = 0 ∧ val2 = 0 then p.withKp (raiseParam p.kp (2 * UQ_GR))
  else p

/-- The number of bits of the first value: as many as `code` has, which is cast to `int16_t` first. -/
def rlgrPairBits (code : Nat) : Except Stop Nat :=
  if code ≠ 0 then do
    let mag ← castInt16 code
    let count ← lzcntS mag.toNat
    .ok (32 - count)
  else .ok 0

def rlgrWritePair (dstSize val1 val2 : Nat) (p : RlgrParams) (bs : WBitStream) (output : List Int) :
    Except Stop (Option RlgrState) := do
  let mag1 ← rlgrUnfold val1
  let mag2 ← rlgrUnfold val2
  .ok (some ⟨rlgrPairParams p val1 val2, bs, rlgrWrite dstSize mag2 (rlgrWrite dstSize mag1 output)⟩)

def rlgrFinishPair (dstSize code nIdx : Nat) (p : RlgrParams) (bs : WBitStream) (output : List Int) :
    Except Stop (Option RlgrState) :=
  if bitStreamGetRemainingLength bs < nIdx then .ok none
  else
    let (val1, bs) := rlgrReadBits nIdx bs
    rlgrWritePair dstSize val1 (sub32 code val1) p bs output

def rlgrPair (dstSize code : Nat) (p : RlgrParams) (bs : WBitStream) (output : List Int) :
    Except Stop (Option RlgrState) := do
  let nIdx ← rlgrPairBits code
  rlgrFinishPair dstSize code nIdx p bs output

variable (mode : RlgrMode)

def rlgrWriteCode (dstSize : Nat) (output : List Int) :
    Option (Nat × RlgrParams × WBitStream) → Except Stop (Option RlgrState)
  | none => .ok none
  | some (code, p, bs) =>
    match mode with
    | .rlgr1 => rlgrSingle dstSize code p bs output
    | .rlgr3 => rlgrPair dstSize code p bs output

def rlgrGolombRiceMode (dstSize : Nat) (s : RlgrState) : Except Stop (Option RlgrState) := do
  let found ← rlgrReadCode s.params s.bs
  rlgrWriteCode mode dstSize s.output found

def rlgrStep (dstSize : Nat) (s : RlgrState) : Except Stop (Option RlgrState) :=
  if s.params.k ≠ 0 then rlgrRunMode dstSize s else rlgrGolombRiceMode mode dstSize s

def rlgrLoop (mode : RlgrMode) (dstSize : Nat) : Nat → RlgrState → Except Stop (List Int)
  | 0, s => .ok s.output
  | fuel + 1, s =>
    if 0 < bitStreamGetRemainingLength s.bs ∧ s.output.length < dstSize then do
      let next ← rlgrStep mode dstSize s
      match next with
      | none => .ok s.output
      | some s => rlgrLoop mode dstSize fuel s
    else .ok s.output

/-- The status and what `pDstData` holds afterwards.  Every round of the loop takes a bit. -/
def rfxRlgrDecode (src : List UInt8) (dst : List Int) : Except Stop (Int × List Int) :=
  if src = [] then .ok (-1, dst)
  else if dst = [] then .ok (-1, dst)
  else do
    let bs := bitStreamFetch (bitStreamAttach bitStreamNew (listMem 0 src) src.length)
    let output ← rlgrLoop mode dst.length (bitStreamGetRemainingLength bs) ⟨rlgrInit, bs, []⟩
    let output := output ++ List.replicate (dst.length - output.length) 0
    .ok (if output.length = dst.length then (1, output) else (-1, output))

end KvmServer.Codec
