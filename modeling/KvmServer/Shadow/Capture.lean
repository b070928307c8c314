import KvmServer.Lib.Loop

/-! # Comparing frames (`server/shadow/shadow_capture.c`)

A shadow server compares the screen with the frame it sent last, in blocks of 16 by 16 pixels, and
sends the rectangle of the blocks that differ.  The comparison of frames with different formats is
a parameter. -/

namespace KvmServer.Shadow
open Lib

inductive CaptureStop where
  /-- A `WINPR_ASSERT` fails. -/
  | assertion
  /-- A byte is looked at that does not belong to the frame. -/
  | outside
deriving DecidableEq

structure Frame where
  pData : Nat → Option UInt8
  nStep : Nat

structure Rectangle16 where
  left : Nat := 0
  top : Nat := 0
  right : Nat := 0
  bottom : Nat := 0
deriving DecidableEq

def freerdpGetBitsPerPixel (format : Nat) : Nat := format >>> 24 &&& 0x3F

def freerdpGetBytesPerPixel (format : Nat) : Nat := (freerdpGetBitsPerPixel format + 7) / 8

def memcmpEqual (a b : Nat → Option UInt8) (i j : Nat) : Nat → Except CaptureStop Bool
  | 0 => .ok true
  | n + 1 =>
    match a i, b j with
    | some x, some y => do
      let rest ← memcmpEqual a b (i + 1) (j + 1) n
      return x == y && rest
    | _, _ => .error .outside

/-- A comparison of `count` pixels from offset `a` of one frame and `b` of the other on. -/
abbrev PixelEqualFn := Frame → Nat → Nat → Frame → Nat → Nat → Nat → Except CaptureStop Bool

def pixelEqualSameFormat : PixelEqualFn := fun frame1 a formatA frame2 b formatB count =>
  if formatA ≠ formatB then .ok false
  else memcmpEqual frame1.pData frame2.pData a b (count * freerdpGetBytesPerPixel formatA)

def getComparisonFn (differentFormats : PixelEqualFn) (format1 format2 : Nat) : PixelEqualFn :=
  if format1 = format2 then pixelEqualSameFormat else differentFormats

def blockExtent (i count total : Nat) : Nat :=
  let extent := if i + 1 = count then total % 16 else 16
  if extent = 0 then 16 else extent

def blockEqual (equal : Nat → Nat → Except CaptureStop Bool) (nStep1 nStep2 : Nat) :
    Nat → Nat → Nat → Except CaptureStop Bool
  | 0, _, _ => .ok true
  | rows + 1, p1, p2 => do
    let same ← equal p1 p2
    if same then blockEqual equal nStep1 nStep2 rows (p1 + nStep1) (p2 + nStep2) else .ok false

structure CompareRow where
  rowEqual : Bool
  (l r : Nat)

structure CompareFrame where
  allEqual : Bool
  (l t r b : Nat)

def captureAssert (condition : Prop) [Decidable condition] : Except CaptureStop Unit :=
  if condition then .ok () else .error .assertion

section Compare
variable (differentFormats : PixelEqualFn) (frame1 : Frame) (format1 nWidth nHeight : Nat)
  (frame2 : Frame)
  (format2 : Nat)

def compareBlock (ty tx : Nat) : Except CaptureStop Bool :=
  let ncol := (nWidth + 15) / 16
  let nrow := (nHeight + 15) / 16
  let p1 := ty * 16 * frame1.nStep + tx * 16 * freerdpGetBytesPerPixel format1
  let p2 := ty * 16 * frame2.nStep + tx * 16 * freerdpGetBytesPerPixel format2
  blockEqual
    (fun p1 p2 => getComparisonFn differentFormats format1 format2 frame1 p1 format1 frame2 p2 format2
      (blockExtent tx ncol nWidth))
    frame1.nStep frame2.nStep (blockExtent ty nrow nHeight) p1 p2

def compareColumn (ty tx : Nat) (s : CompareRow) : Except CaptureStop CompareRow := do
  let equal ← compareBlock differentFormats frame1 format1 nWidth nHeight frame2 format2 ty tx
  if equal then return s
  else return ⟨false, if s.l > tx then tx else s.l, if s.r < tx then tx else s.r⟩

def compareRow (ty : Nat) (s : CompareFrame) : Except CaptureStop CompareFrame := do
  let row ← forRange (compareColumn differentFormats frame1 format1 nWidth nHeight frame2 format2 ty)
    ((nWidth + 15) / 16) ⟨true, s.l, s.r⟩
  if row.rowEqual then return { s with l := row.l, r := row.r }
  else return ⟨false, row.l, if s.t > ty then ty else s.t, row.r, if s.b < ty then ty else s.b⟩

def captureRect (s : CompareFrame) : Except CaptureStop Rectangle16 := do
  captureAssert (s.l * 16 ≤ 2 ^ 16 - 1)
  captureAssert (s.t * 16 ≤ 2 ^ 16 - 1)
  captureAssert ((s.r + 1) * 16 ≤ 2 ^ 16 - 1)
  captureAssert ((s.b + 1) * 16 ≤ 2 ^ 16 - 1)
  captureAssert (nWidth ≤ 2 ^ 16 - 1)
  captureAssert (nHeight ≤ 2 ^ 16 - 1)
  return ⟨s.l * 16, s.t * 16, if (s.r + 1) * 16 > nWidth then nWidth else (s.r + 1) * 16,
    if (s.b + 1) * 16 > nHeight then nHeight else (s.b + 1) * 16⟩

/-- Returns 0 for equal frames, and 1 with the rectangle that differs. -/
def shadowCaptureCompareWithFormat : Except CaptureStop (Nat × Rectangle16) := do
  let nrow := (nHeight + 15) / 16
  let ncol := (nWidth + 15) / 16
  let s ← forRange (compareRow differentFormats frame1 format1 nWidth nHeight frame2 format2) nrow
    ⟨true, ncol + 1, nrow + 1, 0, 0⟩
  if s.allEqual then return (0, {})
  else do
    let rect ← captureRect nWidth nHeight s
    return (1, rect)

end Compare

end KvmServer.Shadow
