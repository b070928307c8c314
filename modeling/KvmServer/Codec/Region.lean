import Mathlib

/-! # Regions (`codec/region.c`)

A region is a list of rectangles in bands: the rectangles of a band have the same top, and a band
ends where the top changes.  A pointer into the array of rectangles is the list of those from it to
the end. -/

namespace KvmServer.Codec

/-- Nothing here computes with coordinates, they are only compared. -/
structure Rectangle16 where
  (left top right bottom : Nat)
deriving DecidableEq, Repr

def rectangleIsEmpty (rect : Rectangle16) : Bool := rect.left ≥ rect.right ∨ rect.top ≥ rect.bottom

/-- Nothing is returned for `FALSE`. -/
def rectanglesIntersection (r1 r2 : Rectangle16) : Option Rectangle16 :=
  let dst : Rectangle16 :=
    ⟨max r1.left r2.left, max r1.top r2.top, min r1.right r2.right, min r1.bottom r2.bottom⟩
  if dst.left < dst.right ∧ dst.top < dst.bottom then some dst else none

def rectanglesIntersects (r1 r2 : Rectangle16) : Bool := (rectanglesIntersection r1 r2).isSome

structure Region16 where
  extents : Rectangle16
  rects : List Rectangle16
deriving DecidableEq, Repr

def region16Init : Region16 := ⟨⟨0, 0, 0, 0⟩, []⟩

def bandItems (src : List Rectangle16) : List Rectangle16 :=
  match src with
  | [] => []
  | first :: _ => src.takeWhile fun r => r.top = first.top

def nextBand (src : List Rectangle16) : List Rectangle16 :=
  match src with
  | [] => []
  | first :: _ => src.dropWhile fun r => r.top = first.top

/-! ## Union -/

def rectangleContainedInBand (band : List Rectangle16) (rect : Rectangle16) : Bool :=
  match band with
  | [] => false
  | first :: _ =>
    if first.top > rect.top ∨ rect.bottom > first.bottom then false
    else ((bandItems band).takeWhile fun r => r.left ≤ rect.left).any fun r => rect.right ≤ r.right

/-- `region16_copy_band_with_union` without a rectangle. -/
def copyBand (newTop newBottom : Nat) (band : List Rectangle16) : List Rectangle16 :=
  band.map fun src => ⟨src.left, newTop, src.right, newBottom⟩

/-- From the first item that overlaps `unionRect` on, those that end inside of it are passed over,
and one that does not ends the new item. -/
def copyBandOverlap (newTop newBottom : Nat) (unionRect : Rectangle16) (startOverlap : Nat) :
    List Rectangle16 → List Rectangle16
  | [] => [⟨startOverlap, newTop, unionRect.right, newBottom⟩]
  | src :: band =>
    if src.right < unionRect.right then copyBandOverlap newTop newBottom unionRect startOverlap band
    else if src.left < unionRect.right then
      ⟨startOverlap, newTop, src.right, newBottom⟩ :: copyBand newTop newBottom band
    else ⟨startOverlap, newTop, unionRect.right, newBottom⟩ :: copyBand newTop newBottom (src :: band)

/-- `region16_copy_band_with_union` with a rectangle. -/
def copyBandWithUnion (newTop newBottom : Nat) (unionRect : Rectangle16) :
    List Rectangle16 → List Rectangle16
  | [] => [⟨unionRect.left, newTop, unionRect.right, newBottom⟩]
  | src :: band =>
    if src.right < unionRect.left then
      ⟨src.left, newTop, src.right, newBottom⟩ :: copyBandWithUnion newTop newBottom unionRect band
    else
      copyBandOverlap newTop newBottom unionRect
        (if src.left < unionRect.left then src.left else unionRect.left)
        (src :: band)

def bandStays (currentBand : List Rectangle16) (first rect : Rectangle16) : Bool :=
  first.bottom ≤ rect.top ∨ rect.bottom ≤ first.top ∨ rectangleContainedInBand currentBand rect = true

/-- The band at the front with `rect`: a top split, the merge zone and a bottom split. -/
def unionBand (rect first : Rectangle16) (currentBand : List Rectangle16) : List Rectangle16 :=
  let band := bandItems currentBand
  if bandStays currentBand first rect then copyBand first.top first.bottom band
  else
    let mergeTop := if rect.top > first.top then rect.top else first.top
    let mergeBottom := if rect.bottom < first.bottom then rect.bottom else first.bottom
    (if rect.top > first.top then copyBand first.top rect.top band else []) ++
      copyBandWithUnion mergeTop mergeBottom rect band ++
      (if rect.bottom < first.bottom then copyBand mergeBottom first.bottom band else [])

def unionGap (rect first : Rectangle16) (currentBand : List Rectangle16) : List Rectangle16 :=
  let topInterBand := if bandStays currentBand first rect then rect.top else first.bottom
  match nextBand currentBand with
  | [] => []
  | next :: _ =>
    if next.top ≠ first.bottom ∧ rect.bottom > first.bottom ∧ rect.top < next.top then
      [⟨rect.left, topInterBand, rect.right, min next.top rect.bottom⟩]
    else []

def unionBands (rect : Rectangle16) : Nat → List Rectangle16 → List Rectangle16
  | _, [] => []
  | 0, _ :: _ => []
  | fuel + 1, first :: rest =>
    unionBand rect first (first :: rest) ++ unionGap rect first (first :: rest) ++
      unionBands rect fuel (nextBand (first :: rest))

/-- Both bands have the same items. -/
def bandMatch (band1 band2 : List Rectangle16) : Bool :=
  band1.map (fun r => (r.left, r.right)) = band2.map fun r => (r.left, r.right)

/-- The loop of `region16_simplify_bands`; every round takes a rectangle away or passes over one. -/
def simplifyBands : Nat → List Rectangle16 → List Rectangle16
  | 0, rects => rects
  | fuel + 1, band1 =>
    match band1, nextBand band1 with
    | first :: _, second :: rest =>
      if first.bottom = second.top ∧ bandMatch (bandItems band1) (bandItems (second :: rest)) then
        -- band1 is not moved, as the band after band2 may be merged too
        simplifyBands fuel
          (((bandItems band1).map fun r => { r with bottom := second.bottom }) ++
            (second :: rest).drop (bandItems band1).length)
      else bandItems band1 ++ simplifyBands fuel (second :: rest)
    | _, _ => band1

def region16SimplifyBands (rects : List Rectangle16) : List Rectangle16 :=
    simplifyBands rects.length rects

/-- `region16_union_rect`, when memory is available. -/
def region16UnionRect (src : Region16) (rect : Rectangle16) : Region16 :=
  if src.rects = [] then ⟨rect, [rect]⟩
  else
    let above :=
      if rect.top < src.extents.top then
        [(⟨rect.left, rect.top, rect.right, min src.extents.top rect.bottom⟩ : Rectangle16)]
      else []
    let below :=
      if src.extents.bottom < rect.bottom then
        [(⟨rect.left, max src.extents.bottom rect.top, rect.right, rect.bottom⟩ : Rectangle16)]
      else []
    { extents :=
        ⟨min rect.left src.extents.left, min rect.top src.extents.top, max rect.right src.extents.right,
          max rect.bottom src.extents.bottom⟩
      rects := region16SimplifyBands (above ++ unionBands rect src.rects.length src.rects ++ below) }

def growExtents (extents common : Rectangle16) : Rectangle16 :=
  if rectangleIsEmpty extents then common
  else
    ⟨min common.left extents.left, min common.top extents.top, max common.right extents.right,
      max common.bottom extents.bottom⟩

def region16IntersectRect (src : Region16) (rect : Rectangle16) : Region16 :=
  match src.rects with
  | [] => region16Init
  | [_] =>
    match rectanglesIntersection src.extents rect with
    | some common => region16UnionRect region16Init common
    | none => region16Init
  | rects =>
    let common :=
      (rects.takeWhile fun srcPtr => rect.bottom > srcPtr.top).filterMap fun srcPtr =>
        rectanglesIntersection srcPtr rect
    ⟨common.foldl growExtents ⟨0, 0, 0, 0⟩, region16SimplifyBands common⟩

end KvmServer.Codec
