import Mathlib

/-! # Clipping of drawing operations (`gdi/clipping.c`, `gdi/region.c`)

Rectangles come with inclusive edges (`GDI_RECT`) or with a width and a height (`GDI_RGN`).  `none`
is a failed assertion or an overflow of `INT32` arithmetic. -/

namespace KvmServer.Gdi

def INT32_MIN : Int := -2147483648
def INT32_MAX : Int := 2147483647

def IsInt32 (v : Int) : Prop := INT32_MIN ≤ v ∧ v ≤ INT32_MAX

instance (v : Int) : Decidable (IsInt32 v) := inferInstanceAs (Decidable (_ ∧ _))

def int32 (v : Int) : Option Int := if IsInt32 v then some v else none

structure GdiRect where
  (left top right bottom : Int)
deriving DecidableEq

structure GdiRgn where
  (x y w h : Int)
  null : Bool
deriving DecidableEq

structure GdiBitmap where
  (width height : Int)
deriving DecidableEq

structure GdiDC where
  selectedObject : Option GdiBitmap
  clip : GdiRgn
deriving DecidableEq

/-! ## Conversions -/

/-- The operands are `INT64`. -/
def gdiCRgnToRect (x y w h : Int) : Option (Bool × GdiRect) :=
  let r := x + w - 1
  let b := y + h - 1
  if x ≤ INT32_MAX ∧ y ≤ INT32_MAX ∧ r ≤ INT32_MAX ∧ b ≤ INT32_MAX then
    let left := if x > 0 then x else 0
    let top := if y > 0 then y else 0
    let invalid := w ≤ 0 ∨ h ≤ 0 ∨ ¬r > 0 ∨ ¬b > 0
    some (¬invalid, ⟨left, top, if r > 0 then r else left, if b > 0 then b else top⟩)
  else none

/-- The sums are `INT32`, the differences `INT64`. -/
def gdiRgnToRect (rgn : GdiRgn) : Option (Bool × GdiRect) :=
  match int32 (rgn.x + rgn.w), int32 (rgn.y + rgn.h) with
  | some right, some bottom =>
    let r := right - 1
    let b := bottom - 1
    if r < INT32_MIN ∨ r > INT32_MAX ∨ b < INT32_MIN ∨ b > INT32_MAX then
      some (false, ⟨rgn.x, rgn.y, rgn.x, rgn.y⟩)
    else some (true, ⟨rgn.x, rgn.y, r, b⟩)
  | _, _ => none

def gdiSide (first last : Int) : Option Int :=
  match int32 (last - first) with
  | none => none
  | some difference =>
    match int32 (difference + 1) with
    | none => none
    | some tmp => some (if tmp < 0 ∨ tmp > INT32_MAX then 0 else tmp)

structure GdiCoords where
  (x y w h srcx srcy : Int)
deriving DecidableEq

def gdiRectToCRgn (rect : GdiRect) (srcx srcy : Int) : Option GdiCoords :=
  match gdiSide rect.left rect.right, gdiSide rect.top rect.bottom with
  | some w, some h => some ⟨rect.left, rect.top, w, h, srcx, srcy⟩
  | _, _ => none

/-! ## Clipping -/

def gdiClampRect (clip bitmap : GdiRect) : GdiRect where
  left := if clip.left < bitmap.left then bitmap.left else clip.left
  top := if clip.top < bitmap.top then bitmap.top else clip.top
  right := if clip.right > bitmap.right then bitmap.right else clip.right
  bottom := if clip.bottom > bitmap.bottom then bitmap.bottom else clip.bottom

def gdiClipRect (hdc : GdiDC) : Option GdiRect :=
  match hdc.selectedObject with
  | none => (gdiRgnToRect hdc.clip).map Prod.snd
  | some hBitmap =>
    if hdc.clip.null then (gdiCRgnToRect 0 0 hBitmap.width hBitmap.height).map Prod.snd
    else
      match gdiRgnToRect hdc.clip, gdiCRgnToRect 0 0 hBitmap.width hBitmap.height with
      | some clip, some bitmap => some (gdiClampRect clip.2 bitmap.2)
      | _, _ => none

def GdiRect.Overlaps (coords clip : GdiRect) : Prop :=
  coords.right ≥ clip.left ∧ coords.left ≤ clip.right ∧ coords.bottom ≥ clip.top ∧
    coords.top ≤ clip.bottom

instance (coords clip : GdiRect) : Decidable (coords.Overlaps clip) :=
    inferInstanceAs (Decidable (_ ∧ _))

def gdiClipTo (clip coords : GdiRect) (srcx srcy : Int) : Option (Bool × GdiCoords) :=
  if coords.Overlaps clip then
    let dx := if coords.left < clip.left then clip.left - coords.left else 0
    let dy := if coords.top < clip.top then clip.top - coords.top else 0
    let coords : GdiRect :=
      { left := if coords.left < clip.left then clip.left else coords.left
        top := if coords.top < clip.top then clip.top else coords.top
        right := if coords.right > clip.right then clip.right else coords.right
        bottom := if coords.bottom > clip.bottom then clip.bottom else coords.bottom }
    match int32 (srcx + dx), int32 (srcy + dy) with
    | some srcx, some srcy => (gdiRectToCRgn coords srcx srcy).map fun out => (true, out)
    | _, _ => none
  else (gdiRectToCRgn ⟨0, 0, 0, 0⟩ srcx srcy).map fun out => (false, out)

def gdiClipCoords (hdc : GdiDC) (coords : GdiCoords) : Option (Bool × GdiCoords) :=
  match gdiClipRect hdc, gdiCRgnToRect coords.x coords.y coords.w coords.h with
  | some clip, some rect => gdiClipTo clip rect.2 coords.srcx coords.srcy
  | _, _ => none

def pixels (x y w h : Int) : Set (Int × Int) := { p | x ≤ p.1 ∧ p.1 < x + w ∧ y ≤ p.2 ∧ p.2 < y + h }

def GdiCoords.pixels (coords : GdiCoords) : Set (Int × Int) :=
    Gdi.pixels coords.x coords.y coords.w coords.h

def visible (bitmap : GdiBitmap) (clip : GdiRgn) : Set (Int × Int) :=
  { p | p ∈ pixels 0 0 bitmap.width bitmap.height ∧
    (clip.null = false → p ∈ pixels clip.x clip.y clip.w clip.h) }

def ClipExact (bitmap : GdiBitmap) (clip : GdiRgn) (coords : GdiCoords) : Prop :=
  ∃ draw out, gdiClipCoords ⟨some bitmap, clip⟩ coords = some (draw, out) ∧
    (draw = true ↔ (coords.pixels ∩ visible bitmap clip).Nonempty) ∧
    (draw = true → out.pixels = coords.pixels ∩ visible bitmap clip ∧
      out.srcx - coords.srcx = out.x - coords.x ∧ out.srcy - coords.srcy = out.y - coords.y)

/-! ## What the conversions leave -/

def clipFirst (null : Bool) (first : Int) : Int := if null then 0 else max first 0

def clipLast (null : Bool) (last size : Int) : Int := if null then size - 1 else min last (size - 1)

/-- A region that ends right at `INT32_MIN` is taken for its first pixel. -/
def regionLast (clip : GdiRgn) (first size : Int) : Int :=
  if clip.x + clip.w = INT32_MIN ∨ clip.y + clip.h = INT32_MIN then first else first + size - 1

/-- The side `first, size` of the rectangle, pushed to where there are pixels, stays off the clip. -/
def Apart (first size clipFirst clipLast : Int) : Prop :=
  (if 0 < first + size - 1 then first + size - 1 else max first 0) < clipFirst ∨ clipLast < max first 0

structure ClipSound (bitmap : GdiBitmap) (clip : GdiRgn) (coords : GdiCoords) : Prop where
  /-- the last pixel of the rectangle is an `INT32` -/
  ends : coords.x + coords.w - 1 ≤ INT32_MAX ∧ coords.y + coords.h - 1 ≤ INT32_MAX
  /-- and so is the end of the region -/
  regionEnds : clip.null = false → IsInt32 (clip.x + clip.w) ∧ IsInt32 (clip.y + clip.h)
  /-- a rectangle that is drawn starts inside, and the source has room to move -/
  drawn : (coords.pixels ∩ visible bitmap clip).Nonempty → 0 ≤ coords.x ∧ 0 ≤ coords.y ∧
    coords.srcx + (max coords.x (clipFirst clip.null clip.x) - coords.x) ≤ INT32_MAX ∧
    coords.srcy + (max coords.y (clipFirst clip.null clip.y) - coords.y) ≤ INT32_MAX
  /-- one that is not drawn is off the clip on an axis -/
  hidden : ¬(coords.pixels ∩ visible bitmap clip).Nonempty →
    Apart coords.x coords.w (clipFirst clip.null clip.x)
        (clipLast clip.null (regionLast clip clip.x clip.w) bitmap.width) ∨
      Apart coords.y coords.h (clipFirst clip.null clip.y)
        (clipLast clip.null (regionLast clip clip.y clip.h) bitmap.height)

theorem gdiCRgnToRect_eq {x y w h : Int} (xFits : x ≤ INT32_MAX) (yFits : y ≤ INT32_MAX) :
    (gdiCRgnToRect x y w h).map Prod.snd = if x + w - 1 ≤ INT32_MAX ∧ y + h - 1 ≤ INT32_MAX then
        some ⟨max x 0, max y 0, if 0 < x + w - 1 then x + w - 1 else max x 0,
          if 0 < y + h - 1 then y + h - 1 else max y 0⟩ else none := by
  have pos : ∀ v : Int, (if v > 0 then v else 0) = max v 0 := by
    intro v
    split <;> omega
  unfold gdiCRgnToRect
  by_cases ends : x + w - 1 ≤ INT32_MAX ∧ y + h - 1 ≤ INT32_MAX
  · rw [if_pos ends, if_pos ⟨xFits, yFits, ends⟩]
    simp only [Option.map_some, pos, gt_iff_lt]
  rw [if_neg ends, if_neg (fun all => ends all.2.2)]
  rfl

theorem int32_of {v : Int} (fits : IsInt32 v) : int32 v = some v := if_pos fits

theorem int32_of_not {v : Int} (overflow : ¬IsInt32 v) : int32 v = none := if_neg overflow

theorem gdiRgnToRect_eq (rgn : GdiRgn) : (gdiRgnToRect rgn).map Prod.snd =
      if IsInt32 (rgn.x + rgn.w) ∧ IsInt32 (rgn.y + rgn.h) then
        some ⟨rgn.x, rgn.y, regionLast rgn rgn.x rgn.w, regionLast rgn rgn.y rgn.h⟩
      else none := by
  unfold gdiRgnToRect
  by_cases right : IsInt32 (rgn.x + rgn.w)
  swap
  · rw [int32_of_not right, if_neg (fun both => right both.1)]
    rfl
  by_cases bottom : IsInt32 (rgn.y + rgn.h)
  swap
  · rw [int32_of right, int32_of_not bottom, if_neg (fun both => bottom both.2)]
    rfl
  rw [int32_of right, int32_of bottom, if_pos ⟨right, bottom⟩]
  unfold IsInt32 INT32_MIN INT32_MAX at right bottom
  unfold regionLast INT32_MIN INT32_MAX
  by_cases ge : rgn.x + rgn.w = -2147483648 ∨ rgn.y + rgn.h = -2147483648
  · simp only [if_pos ge]
    rw [if_pos (by omega)]
    rfl
  simp only [if_neg ge]
  rw [if_neg (by omega)]
  rfl

variable {bitmap : GdiBitmap} {clip : GdiRgn} {coords : GdiCoords} {clipRect rect : GdiRect}

def clipEdges (bitmap : GdiBitmap) (clip : GdiRgn) : GdiRect where
  left := clipFirst clip.null clip.x
  top := clipFirst clip.null clip.y
  right := clipLast clip.null (regionLast clip clip.x clip.w) bitmap.width
  bottom := clipLast clip.null (regionLast clip clip.y clip.h) bitmap.height

theorem gdiClipRect_eq (width : 0 < bitmap.width ∧ bitmap.width ≤ INT32_MAX)
    (height : 0 < bitmap.height ∧ bitmap.height ≤ INT32_MAX) :
    gdiClipRect ⟨some bitmap, clip⟩ = if clip.null = false → IsInt32 (clip.x + clip.w) ∧
      IsInt32 (clip.y + clip.h) then some (clipEdges bitmap clip) else none := by
  have area : (gdiCRgnToRect 0 0 bitmap.width bitmap.height).map Prod.snd =
      some ⟨0, 0, bitmap.width - 1, bitmap.height - 1⟩ := by
    rw [gdiCRgnToRect_eq (by decide) (by decide), if_pos (by omega)]
    congr 2 <;> split <;> omega
  obtain ⟨x, y, w, h, null⟩ := clip
  cases null with
  | true =>
    exact area
  | false =>
    have rgn := gdiRgnToRect_eq ⟨x, y, w, h, false⟩
    simp only [gdiClipRect, Bool.false_eq_true, if_false, forall_const]
    by_cases defined : IsInt32 (x + w) ∧ IsInt32 (y + h)
    · rw [if_pos defined] at rgn ⊢
      obtain ⟨_, got, edges⟩ := Option.map_eq_some_iff.mp rgn
      obtain ⟨_, bitmapGot, bitmapEdges⟩ := Option.map_eq_some_iff.mp area
      rw [got, bitmapGot]
      simp only [edges, bitmapEdges, gdiClampRect, clipEdges, clipFirst, clipLast,
        Bool.false_eq_true, if_false]
      congr 2 <;> split <;> omega
    rw [if_neg defined] at rgn ⊢
    rw [Option.map_eq_none_iff.mp rgn]

theorem mem_visible_iff (px py : Int) : (px, py) ∈ visible bitmap clip ↔
      (clipFirst clip.null clip.x ≤ px ∧ px ≤ clipLast clip.null (clip.x + clip.w - 1) bitmap.width) ∧
        clipFirst clip.null clip.y ≤ py ∧
        py ≤ clipLast clip.null (clip.y + clip.h - 1) bitmap.height := by
  simp only [visible, pixels, Set.mem_ofPred_eq]
  unfold clipFirst clipLast
  cases clip.null with
  | true =>
    simp only [if_true, Bool.true_eq_false, false_implies, and_true]
    omega
  | false =>
    simp only [Bool.false_eq_true, if_false, forall_const, le_min_iff, max_le_iff]
    omega

theorem shares_iff :
    (coords.pixels ∩ visible bitmap clip).Nonempty ↔ (max coords.x (clipFirst clip.null clip.x) ≤
          min (coords.x + coords.w - 1) (clipLast clip.null (clip.x + clip.w - 1) bitmap.width)) ∧
        max coords.y (clipFirst clip.null clip.y) ≤
          min (coords.y + coords.h - 1) (clipLast clip.null (clip.y + clip.h - 1) bitmap.height) := by
  constructor
  · rintro ⟨⟨px, py⟩, ⟨_, right, _, bottom⟩, seen⟩
    obtain ⟨⟨_, lastX⟩, _, lastY⟩ := (mem_visible_iff px py).mp seen
    exact ⟨max_le_iff.mpr ⟨by omega, by omega⟩ |>.trans (le_min (Int.le_sub_one_of_lt right) lastX),
      max_le_iff.mpr ⟨by omega, by omega⟩ |>.trans (le_min (Int.le_sub_one_of_lt bottom) lastY)⟩
  rintro ⟨hor, ver⟩
  rw [le_min_iff] at hor ver
  refine ⟨(max coords.x (clipFirst clip.null clip.x), max coords.y (clipFirst clip.null clip.y)), ?_, ?_⟩
  · exact ⟨le_max_left _ _,
      by have := hor.1; simp only; omega, le_max_left _ _, by have := ver.1; simp only; omega⟩
  · exact (mem_visible_iff _ _).mpr ⟨⟨le_max_right _ _, hor.2⟩, le_max_right _ _, ver.2⟩

theorem gdiSide_of_le {fst last : Int} (ordered : fst ≤ last) (st : 0 ≤ fst) (fits : last < INT32_MAX) :
    gdiSide fst last = some (last - fst + 1) := by
  unfold INT32_MAX at fits
  have difference : IsInt32 (last - fst) := by
    unfold IsInt32 INT32_MIN INT32_MAX
    omega
  have side : IsInt32 (last - fst + 1) := by
    unfold IsInt32 INT32_MIN INT32_MAX
    omega
  unfold gdiSide
  rw [int32_of difference]
  simp only [int32_of side]
  rw [if_neg]
  unfold INT32_MAX
  omega

theorem gdiClipTo_shared {srcx srcy : Int}
    (hor : max rect.left clipRect.left ≤ min rect.right clipRect.right)
    (ver : max rect.top clipRect.top ≤ min rect.bottom clipRect.bottom)
    (inside : 0 ≤ rect.left ∧ 0 ≤ rect.top ∧ clipRect.right < INT32_MAX ∧ clipRect.bottom < INT32_MAX) :
    gdiClipTo clipRect rect srcx srcy =
      match int32 (srcx + (max rect.left clipRect.left - rect.left)),
        int32 (srcy + (max rect.top clipRect.top - rect.top)) with
      | some srcx, some srcy => some (true, ⟨max rect.left clipRect.left, max rect.top clipRect.top,
            min rect.right clipRect.right - max rect.left clipRect.left + 1,
            min rect.bottom clipRect.bottom - max rect.top clipRect.top + 1, srcx, srcy⟩)
      | _, _ => none := by
  have overlaps : rect.Overlaps clipRect := by
    unfold GdiRect.Overlaps
    omega
  have fst : ∀ a b : Int, (if a < b then b else a) = max a b := by
    intro a b
    split <;> omega
  have last : ∀ a b : Int, (if a > b then b else a) = min a b := by
    intro a b
    split <;> omega
  have shift : ∀ a b : Int, (if a < b then b - a else 0) = max a b - a := by
    intro a b
    split <;> omega
  have width := gdiSide_of_le hor (by omega) (by omega)
  have height := gdiSide_of_le ver (by omega) (by omega)
  unfold gdiClipTo
  rw [if_pos overlaps]
  simp only [fst, last, shift, gdiRectToCRgn, width, height, Option.map_some]

theorem gdiClipTo_draw {srcx srcy : Int} {draw : Bool} {out : GdiCoords}
    (clipped : gdiClipTo clipRect rect srcx srcy = some (draw, out)) :
    draw = true ↔ rect.Overlaps clipRect := by
  unfold gdiClipTo at clipped
  by_cases overlaps : rect.Overlaps clipRect
  · rw [if_pos overlaps] at clipped
    simp only at clipped
    split at clipped
    · obtain ⟨_, -, pair⟩ := Option.map_eq_some_iff.mp clipped
      cases pair
      exact ⟨fun _ => overlaps, fun _ => rfl⟩
    · cases clipped
  rw [if_neg overlaps] at clipped
  obtain ⟨_, -, pair⟩ := Option.map_eq_some_iff.mp clipped
  cases pair
  exact ⟨nofun, fun yes => absurd yes overlaps⟩

theorem gdiClipTo_hidden (apart : ¬rect.Overlaps clipRect) (srcx srcy : Int) :
    gdiClipTo clipRect rect srcx srcy = some (false, ⟨0, 0, 1, 1, srcx, srcy⟩) := by
  unfold gdiClipTo
  rw [if_neg apart]
  rfl

/-- The rectangle as `gdi_CRgnToRect` has it. -/
def coordsEdges (coords : GdiCoords) : GdiRect where
  left := max coords.x 0
  top := max coords.y 0
  right := if 0 < coords.x + coords.w - 1 then coords.x + coords.w - 1 else max coords.x 0
  bottom := if 0 < coords.y + coords.h - 1 then coords.y + coords.h - 1 else max coords.y 0

theorem not_overlaps_iff_apart : ¬(coordsEdges coords).Overlaps (clipEdges bitmap clip) ↔
      Apart coords.x coords.w (clipFirst clip.null clip.x)
      (clipLast clip.null (regionLast clip clip.x clip.w) bitmap.width) ∨
        Apart coords.y coords.h (clipFirst clip.null clip.y)
        (clipLast clip.null (regionLast clip clip.y clip.h) bitmap.height) := by
  unfold GdiRect.Overlaps Apart coordsEdges clipEdges
  simp only [ge_iff_le]
  omega

section Exact
variable (width : 0 < bitmap.width ∧ bitmap.width ≤ INT32_MAX)
  (height : 0 < bitmap.height ∧ bitmap.height ≤ INT32_MAX)
  (x : coords.x ≤ INT32_MAX) (y : coords.y ≤ INT32_MAX)
  (srcx : INT32_MIN ≤ coords.srcx) (srcy : INT32_MIN ≤ coords.srcy)
include width height x y in
theorem gdiClipCoords_eq : gdiClipCoords ⟨some bitmap, clip⟩ coords =
      if (clip.null = false → IsInt32 (clip.x + clip.w) ∧ IsInt32 (clip.y + clip.h)) ∧
          coords.x + coords.w - 1 ≤ INT32_MAX ∧ coords.y + coords.h - 1 ≤ INT32_MAX then
        gdiClipTo (clipEdges bitmap clip) (coordsEdges coords) coords.srcx coords.srcy
      else none := by
  have rectangle := @gdiCRgnToRect_eq coords.x coords.y coords.w coords.h x y
  unfold gdiClipCoords
  rw [gdiClipRect_eq width height]
  by_cases rgn : clip.null = false → IsInt32 (clip.x + clip.w) ∧ IsInt32 (clip.y + clip.h)
  swap
  · rw [if_neg rgn, if_neg (fun both => rgn both.1)]
  rw [if_pos rgn]
  by_cases ends : coords.x + coords.w - 1 ≤ INT32_MAX ∧ coords.y + coords.h - 1 ≤ INT32_MAX
  · rw [if_pos ⟨rgn, ends⟩]
    rw [if_pos ends] at rectangle
    obtain ⟨_, got, edges⟩ := Option.map_eq_some_iff.mp rectangle
    rw [got]
    simp only [edges]
    rfl
  rw [if_neg (fun both => ends both.2)]
  rw [if_neg ends] at rectangle
  rw [Option.map_eq_none_iff.mp rectangle]

theorem regionLast_of_shared (shared : (coords.pixels ∩ visible bitmap clip).Nonempty) :
    clipLast clip.null (regionLast clip clip.x clip.w) bitmap.width = clipLast clip.null
    (clip.x + clip.w - 1) bitmap.width ∧
      clipLast clip.null (regionLast clip clip.y clip.h) bitmap.height = clipLast clip.null
      (clip.y + clip.h - 1) bitmap.height := by
  obtain ⟨⟨_, _⟩, -, onBitmap, onClip⟩ := shared
  unfold clipLast regionLast
  cases null : clip.null with
  | true => exact ⟨rfl, rfl⟩
  | false =>
    have inClip := onClip null
    simp only [pixels, Set.mem_ofPred_eq] at onBitmap inClip
    have past : ¬(clip.x + clip.w = INT32_MIN ∨ clip.y + clip.h = INT32_MIN) := by
      unfold INT32_MIN
      omega
    rw [if_neg past, if_neg past]
    exact ⟨rfl, rfl⟩

include width height in
theorem gdiClipTo_edges (shared : (coords.pixels ∩ visible bitmap clip).Nonempty) :
    gdiClipTo (clipEdges bitmap clip) (coordsEdges coords) coords.srcx coords.srcy =
      match int32 (coords.srcx + (max (max coords.x 0) (clipFirst clip.null clip.x) - max coords.x 0)),
        int32 (coords.srcy + (max (max coords.y 0) (clipFirst clip.null clip.y) - max coords.y 0)) with
      | some srcx, some srcy => some (true,
          ⟨max coords.x (clipFirst clip.null clip.x), max coords.y (clipFirst clip.null clip.y),
            min (coords.x + coords.w - 1) (clipLast clip.null (clip.x + clip.w - 1) bitmap.width) -
              max coords.x (clipFirst clip.null clip.x) + 1,
            min (coords.y + coords.h - 1) (clipLast clip.null (clip.y + clip.h - 1) bitmap.height) -
              max coords.y (clipFirst clip.null clip.y) + 1, srcx, srcy⟩)
      | _, _ => none := by
  obtain ⟨lastX, lastY⟩ := regionLast_of_shared shared
  obtain ⟨_, _⟩ := shares_iff.mp shared
  have fstX : 0 ≤ clipFirst clip.null clip.x := by
    unfold clipFirst
    split <;> omega
  have fstY : 0 ≤ clipFirst clip.null clip.y := by
    unfold clipFirst
    split <;> omega
  have insideX : clipLast clip.null (clip.x + clip.w - 1) bitmap.width ≤ bitmap.width - 1 := by
    unfold clipLast
    split <;> omega
  have insideY : clipLast clip.null (clip.y + clip.h - 1) bitmap.height ≤ bitmap.height - 1 := by
    unfold clipLast
    split <;> omega
  have right : (coordsEdges coords).right = coords.x + coords.w - 1 := by
    unfold coordsEdges
    simp only
    split <;> omega
  have bottom : (coordsEdges coords).bottom = coords.y + coords.h - 1 := by
    unfold coordsEdges
    simp only
    split <;> omega
  have edgeX :
    (clipEdges bitmap clip).right = clipLast clip.null (clip.x + clip.w - 1) bitmap.width := lastX
  have edgeY :
    (clipEdges bitmap clip).bottom = clipLast clip.null (clip.y + clip.h - 1) bitmap.height := lastY
  have left : (clipEdges bitmap clip).left = clipFirst clip.null clip.x := rfl
  have top : (clipEdges bitmap clip).top = clipFirst clip.null clip.y := rfl
  have stX : (coordsEdges coords).left = max coords.x 0 := rfl
  have stY : (coordsEdges coords).top = max coords.y 0 := rfl
  have drawnX :
      max (max coords.x 0) (clipFirst clip.null clip.x) = max coords.x (clipFirst clip.null clip.x) := by
    omega
  have drawnY :
      max (max coords.y 0) (clipFirst clip.null clip.y) = max coords.y (clipFirst clip.null clip.y) := by
    omega
  rw [gdiClipTo_shared (by rw [right, edgeX, left, stX]; omega) (by rw [bottom, edgeY, top, stY]; omega)
    (by rw [edgeX, edgeY, stX, stY]; omega)]
  rw [right, bottom, edgeX, edgeY, left, top, stX, stY, drawnX, drawnY]

theorem drawn_pixels (srcx srcy : Int) :
    GdiCoords.pixels ⟨max coords.x (clipFirst clip.null clip.x),
      max coords.y (clipFirst clip.null clip.y),
      min (coords.x + coords.w - 1) (clipLast clip.null (clip.x + clip.w - 1) bitmap.width) -
        max coords.x (clipFirst clip.null clip.x) + 1,
      min (coords.y + coords.h - 1) (clipLast clip.null (clip.y + clip.h - 1) bitmap.height) -
        max coords.y (clipFirst clip.null clip.y) + 1, srcx, srcy⟩ =
          coords.pixels ∩ visible bitmap clip := by
  -- on one axis: between the later start and the earlier end
  have axis : ∀ start size first last p : Int,
      (max start first ≤ p ∧ p < max start first + (min (start + size - 1) last - max start first + 1)) ↔
        (start ≤ p ∧ p < start + size) ∧ first ≤ p ∧ p ≤ last := by
    omega
  ext ⟨px, py⟩
  rw [Set.mem_inter_iff, mem_visible_iff]
  have hor := axis coords.x coords.w (clipFirst clip.null clip.x)
    (clipLast clip.null (clip.x + clip.w - 1) bitmap.width) px
  have ver := axis coords.y coords.h (clipFirst clip.null clip.y)
    (clipLast clip.null (clip.y + clip.h - 1) bitmap.height) py
  constructor
  · rintro ⟨left, right, top, bottom⟩
    obtain ⟨⟨stX, endX⟩, seenX⟩ := hor.mp ⟨left, right⟩
    obtain ⟨⟨stY, endY⟩, seenY⟩ := ver.mp ⟨top, bottom⟩
    exact ⟨⟨stX, endX, stY, endY⟩, seenX, seenY⟩
  rintro ⟨⟨stX, endX, stY, endY⟩, seenX, seenY⟩
  obtain ⟨left, right⟩ := hor.mpr ⟨⟨stX, endX⟩, seenX⟩
  obtain ⟨top, bottom⟩ := ver.mpr ⟨⟨stY, endY⟩, seenY⟩
  exact ⟨left, right, top, bottom⟩

theorem int32_eq_some {v res : Int} (got : int32 v = some res) : res = v ∧ IsInt32 v := by
  unfold int32 at got
  split at got
  · cases got
    exact ⟨rfl, ‹_›⟩
  · cases got

theorem clipFirst_nonneg (null : Bool) (first : Int) : 0 ≤ clipFirst null first := by
  unfold clipFirst
  split <;> omega

theorem start_of_shift {first clip src moved : Int} (pos : 0 ≤ clip)
    (got : int32 (src + (max (max first 0) clip - max first 0)) = some moved)
    (shift : moved - src = max first clip - first) :
    0 ≤ first ∧ src + (max first clip - first) ≤ INT32_MAX := by
  obtain ⟨rfl, -, fits⟩ := int32_eq_some got
  have st : 0 ≤ first := by omega
  rw [max_eq_left st] at fits
  exact ⟨st, fits⟩

include width height x y srcx srcy in
/-- Clipping is exact for these coordinates and no others. -/
theorem gdi_clip_exact_iff : ClipExact bitmap clip coords ↔ ClipSound bitmap clip coords := by
  have fstX := clipFirst_nonneg clip.null clip.x
  have fstY := clipFirst_nonneg clip.null clip.y
  constructor
  · rintro ⟨_, _, clipped, drawn, shift⟩
    rw [gdiClipCoords_eq width height x y] at clipped
    split at clipped
    swap
    · cases clipped
    rename_i defined
    refine ⟨defined.2, defined.1, ?_, ?_⟩
    · intro shared
      rw [gdiClipTo_edges width height shared] at clipped
      split at clipped
      · rename_i _ _ gotX gotY
        cases clipped
        obtain ⟨-, shiftX, shiftY⟩ := shift rfl
        obtain ⟨stX, roomX⟩ := start_of_shift fstX gotX shiftX
        obtain ⟨stY, roomY⟩ := start_of_shift fstY gotY shiftY
        exact ⟨stX, stY, roomX, roomY⟩
      · cases clipped
    intro hidden
    apply not_overlaps_iff_apart.mp
    intro overlaps
    exact hidden (drawn.mp ((gdiClipTo_draw clipped).mpr overlaps))
  · intro sound
    unfold ClipExact
    rw [gdiClipCoords_eq width height x y, if_pos ⟨sound.regionEnds, sound.ends⟩]
    by_cases shared : (coords.pixels ∩ visible bitmap clip).Nonempty
    · obtain ⟨stX, stY, roomX, roomY⟩ := sound.drawn shared
      have fitsX : IsInt32 (coords.srcx + (max coords.x (clipFirst clip.null clip.x) - coords.x)) := by
        refine ⟨?_, roomX⟩
        omega
      have fitsY : IsInt32 (coords.srcy + (max coords.y (clipFirst clip.null clip.y) - coords.y)) := by
        refine ⟨?_, roomY⟩
        omega
      rw [gdiClipTo_edges width height shared, max_eq_left stX, max_eq_left stY,
        int32_of fitsX, int32_of fitsY]
      refine ⟨true, _, rfl, ⟨fun _ => shared, fun _ => rfl⟩, fun _ => ⟨drawn_pixels _ _, ?_, ?_⟩⟩
      · simp only
        omega
      simp only
      omega
    · have apart := not_overlaps_iff_apart.mpr (sound.hidden shared)
      rw [gdiClipTo_hidden apart]
      exact ⟨false, _, rfl, ⟨nofun, fun ne => absurd ne shared⟩, nofun⟩

end Exact

/-- A rectangle that overlaps the bitmap and the region from the left, with its source. -/
theorem gdi_clip_exact_inside : ClipExact ⟨64, 64⟩ ⟨8, 8, 16, 16, false⟩ ⟨0, 4, 10, 10, 100, 200⟩ ∧
      ClipSound ⟨64, 64⟩ ⟨8, 8, 16, 16, false⟩ ⟨0, 4, 10, 10, 100, 200⟩ := by
  have sound : ClipSound ⟨64, 64⟩ ⟨8, 8, 16, 16, false⟩ ⟨0, 4, 10, 10, 100, 200⟩ := by
    refine ⟨by decide, fun _ => by decide, fun _ => by decide, fun hidden => absurd ?_ hidden⟩
    rw [shares_iff]
    decide
  exact ⟨(gdi_clip_exact_iff (by decide) (by decide) (by decide) (by decide)
    (by decide) (by decide)).mpr sound, sound⟩

/-- A rectangle left of the bitmap is drawn, and one that starts left of it takes the wrong part of
the source. -/
theorem gdi_clip_not_exact : ¬ClipExact ⟨64, 64⟩ ⟨0, 0, 0, 0, true⟩ ⟨-10, 0, 5, 5, 0, 0⟩ ∧
      ¬ClipExact ⟨64, 64⟩ ⟨0, 0, 0, 0, true⟩ ⟨-5, 0, 10, 10, 0, 0⟩ := by
  constructor
  · rintro ⟨draw, out, clipped, drawn, -⟩
    cases clipped
    have edges := shares_iff.mp (drawn.mp rfl)
    exact absurd edges (by decide)
  rintro ⟨draw, out, clipped, -, shift⟩
  cases clipped
  exact absurd (shift rfl).2.1 (by decide)

end KvmServer.Gdi
