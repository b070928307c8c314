import KvmServer.Codec.RegionBounds
import KvmServer.Codec.Yuv
import KvmServer.Lib.Memory

/-! # Change detection of `codec/h264.c`

The planes of a frame have the numbers 0 to 2.  `stride` is that of the first one. -/

namespace KvmServer.Codec
open Lib List Rectangle16

def iStride (stride p : Nat) : Nat := if p = 0 then stride else (stride + 1) / 2

variable (cur old : Nat → Mem UInt8) (stride : Nat)

/-- `memcmp` of `size` bytes of row `y` is not zero. -/
def rowDiffers (p y left size : Nat) : Bool :=
  (range size).any fun k =>
    cur p (y * iStride stride p + left + k) ≠ old p (y * iStride stride p + left + k)

/-- The difference `size` is a `size_t`; the rows of all planes are those of the first one. -/
def diffTile (rect : Rectangle16) : Bool :=
  let size := (rect.right + 2 ^ 64 - rect.left) % 2 ^ 64
  if rect.right > iStride stride 0 ∨ rect.right / 2 > iStride stride 1 ∨
    rect.right / 2 > iStride stride 2 then false
  else (range' rect.top (rect.bottom - rect.top)).any fun y =>
    rowDiffers cur old stride 0 y rect.left size || rowDiffers cur old stride 1 y
      (rect.left / 2) (size / 2) ||
      rowDiffers cur old stride 2 y (rect.left / 2) (size / 2)

/-- `x` and `y` start at the corner of the region, which is added once more. -/
def changeTile (regionRect : Rectangle16) (x y : Nat) : Rectangle16 :=
  ⟨min 65535 (regionRect.left + x), min 65535 (regionRect.top + y),
    min 65535 (min (regionRect.left + x + 64) regionRect.right),
      min 65535 (min (regionRect.top + y + 64) regionRect.bottom)⟩

/-- `detect_changes` once the first frame is done: the rectangles of the meta block. -/
def detectChanges (regionRect : Rectangle16) : List Rectangle16 :=
  (range' regionRect.top ((regionRect.bottom - regionRect.top + 63) / 64) 64).flatMap fun y =>
    ((range' regionRect.left ((regionRect.right - regionRect.left + 63) / 64) 64).map fun x =>
      changeTile regionRect x y).filter (diffTile cur old stride)

def Changed (x y : Nat) : Prop :=
  cur 0 (y * iStride stride 0 + x) ≠ old 0 (y * iStride stride 0 + x) ∨
    ∃ p, (p = 1 ∨ p = 2) ∧
      cur p (y / 2 * iStride stride p + x / 2) ≠ old p (y / 2 * iStride stride p + x / 2)

structure DetectsAll (regionRect : Rectangle16) : Prop where
  covered : ∀ x y, regionRect.Has x y → Changed cur old stride x y →
    Handed (detectChanges cur old stride regionRect) x y
  inside : ∀ rect ∈ detectChanges cur old stride regionRect, regionRect.PieceOf rect

variable {cur old stride} {region rect : Rectangle16} {p a x y left size : Nat}

theorem rowDiffers_iff : rowDiffers cur old stride p y left size ↔ ∃ k, k < size ∧
    cur p (y * iStride stride p + left + k) ≠ old p (y * iStride stride p + left + k) := by
  simp [rowDiffers]

theorem mem_detectChanges : rect ∈ detectChanges cur old stride region ↔
    ∃ i j, region.left + 64 * i < region.right ∧ region.top + 64 * j < region.bottom ∧
      rect = changeTile region (region.left + 64 * i) (region.top + 64 * j) ∧
      diffTile cur old stride rect := by
  simp only [detectChanges, mem_flatMap, mem_filter, mem_map, mem_range']
  constructor
  · rintro ⟨_, ⟨j, row, rfl⟩, ⟨_, ⟨i, column, rfl⟩, rfl⟩, diff⟩
    exact ⟨i, j, by omega, by omega, rfl, diff⟩
  · rintro ⟨i, j, column, row, rfl, diff⟩
    exact ⟨_, ⟨j, by omega, rfl⟩, ⟨_, ⟨i, by omega, rfl⟩, rfl⟩, diff⟩

def blank : Nat → Mem UInt8 := fun _ => ⟨fun _ => 0⟩

def spot (p a : Nat) : Nat → Mem UInt8 := fun q => ⟨fun i => if q = p ∧ i = a then 1 else 0⟩

theorem spot_ne {q i : Nat} : spot p a q i ≠ blank q i ↔ q = p ∧ i = a := by
  simp [spot, blank]

/-- The sample is in a row of the tile. -/
theorem diffTile_spot (diff : diffTile (spot p a) blank stride rect) : let size :=
    (rect.right + 2 ^ 64 - rect.left) % 2 ^ 64
    p = 0 ∨ ∃ y k, rect.top ≤ y ∧ k < size / 2 ∧ y * iStride stride p + rect.left / 2 + k = a := by
  unfold diffTile at diff
  split at diff
  · cases diff
  simp only [any_eq_true, mem_range', Bool.or_eq_true, rowDiffers_iff, spot_ne] at diff
  obtain ⟨_, ⟨j, _, rfl⟩, (⟨k, inside, rfl, eq⟩ | ⟨k, inside, rfl, eq⟩) | ⟨k, inside, rfl, eq⟩⟩ := diff
  · exact Or.inl rfl
  · exact Or.inr ⟨_, k, by omega, inside, eq⟩
  · exact Or.inr ⟨_, k, by omega, inside, eq⟩

section
variable (frame : region.right ≤ stride ∧ region.right ≤ 65535 ∧ region.bottom ≤ 65535)
include frame

/-- A difference in the corner is found only if the corner is that of the frame. -/
theorem detects_corner (has : region.Has region.left region.top)
    (found : DetectsAll (spot 0 (region.top * iStride stride 0 + region.left)) blank stride region) :
    region.left = 0 ∧ region.top = 0 := by
  obtain ⟨_, mem, left, -, top, -⟩ := found.covered _ _ has (Or.inl (spot_ne.mpr ⟨rfl, rfl⟩))
  obtain ⟨i, j, -, -, rfl, -⟩ := mem_detectChanges.mp mem
  simp only [changeTile, Has] at left top has
  omega

/-- A difference in the second plane is found only in the rows of its own tile. -/
theorem detects_second (zero : region.left = 0 ∧ region.top = 0) (has : region.Has x y)
    (found : DetectsAll (spot 1 (y / 2 * iStride stride 1 + x / 2)) blank stride region) :
    y < 64 ∧ (y = 0 → x + 1 = region.right → region.right % 2 = 0) := by
  obtain ⟨_, mem, left, right, top, bottom⟩ :=
    found.covered x y has (Or.inr ⟨1, Or.inl rfl, spot_ne.mpr ⟨rfl, rfl⟩⟩)
  obtain ⟨i, j, -, -, rfl, diff⟩ := mem_detectChanges.mp mem
  obtain ⟨row, k, from', inside, eq⟩ := (diffTile_spot diff).resolve_left (by decide)
  have width : iStride stride 1 = (stride + 1) / 2 := rfl
  simp only [changeTile, Has, zero.1, zero.2] at left right top bottom has from' inside eq
  -- a row below that of the sample is behind it in memory
  have above : row ≤ y / 2 := by
    by_contra below
    have behind := Nat.mul_le_mul_right (iStride stride 1) (not_le.mp below)
    rw [Nat.succ_mul] at behind
    omega
  refine ⟨by omega, ?_⟩
  rintro rfl _
  rw [show row = 0 by omega] at eq
  omega

end

/-- Only a region at the origin, at most one tile high and of even width, is compared as a whole. -/
theorem detect_changes_misses_nothing_iff (region : Rectangle16) (stride : Nat)
    (frame : region.right ≤ stride ∧ region.right ≤ 65535 ∧ region.bottom ≤ 65535) :
    (∀ cur old, DetectsAll cur old stride region) ↔ rectangleIsEmpty region ∨
      region.left = 0 ∧ region.top = 0 ∧ region.bottom ≤ 64 ∧ region.right % 2 = 0 := by
  simp only [rectangleIsEmpty, decide_eq_true_eq]
  constructor
  · intro all
    by_cases empty : region.left ≥ region.right ∨ region.top ≥ region.bottom
    · exact Or.inl empty
    have zero := detects_corner frame (by simp only [Has]; omega) (all _ _)
    have rows := @detects_second stride region 0 (region.bottom - 1) frame zero
      (by simp only [Has]; omega) (all _ _)
    have columns := @detects_second stride region (region.right - 1) 0 frame zero
      (by simp only [Has]; omega) (all _ _)
    exact Or.inr ⟨zero.1, zero.2, by omega, columns.2 rfl (by omega)⟩
  · intro condition cur old
    refine ⟨fun x y has changed => ?_, fun rect mem => ?_⟩
    · simp only [Has] at has
      obtain ⟨left, top, bottom, _⟩ := condition.resolve_left (by omega)
      refine ⟨_, mem_detectChanges.mpr ⟨x / 64, 0, by omega, by omega, rfl, ?_⟩, ?_⟩
      · have start : min 65535 (region.left + (region.left + 64 * (x / 64))) = 64 * (x / 64) := by omega
        simp only [diffTile, changeTile, start]
        rw [if_neg (by simp [iStride]; omega), any_eq_true]
        simp only [Bool.or_eq_true, rowDiffers_iff, mem_range'_1]
        obtain _ | ⟨p, chroma, differs⟩ := changed
        · refine ⟨y, by omega, Or.inl (Or.inl ⟨x % 64, by omega, ?_⟩)⟩
          rwa [Nat.add_assoc, Nat.div_add_mod]
        · -- the row of the sample is among the rows of the only tiles there are
          have column : y / 2 * iStride stride p + 64 * (x / 64) / 2 + x % 64 / 2 =
            y / 2 * iStride stride p + x / 2 := by omega
          rw [← column] at differs
          obtain rfl | rfl := chroma
          · exact ⟨y / 2, by omega, Or.inl (Or.inr ⟨x % 64 / 2, by omega, differs⟩)⟩
          · exact ⟨y / 2, by omega, Or.inr ⟨x % 64 / 2, by omega, differs⟩⟩
      · simp only [Has, changeTile]
        omega
    · obtain ⟨i, j, column, row, rfl, -⟩ := mem_detectChanges.mp mem
      have corner := condition.resolve_left (by omega)
      constructor <;> simp only [changeTile] <;> omega

/-- A pixel of the only tile has changed its colour. -/
theorem detect_changes_misses_nothing_tile : spot 1 (5 * iStride 64 1 + 3) ≠ blank ∧
    DetectsAll (spot 1 (5 * iStride 64 1 + 3)) blank 64 ⟨0, 0, 64, 64⟩ := by
  refine ⟨fun same => ?_,
    (detect_changes_misses_nothing_iff ⟨0, 0, 64, 64⟩ 64 (by decide)).mpr (Or.inr (by decide)) _ _⟩
  exact spot_ne.mpr ⟨rfl, rfl⟩ (congrFun (congrArg (fun memory => (memory 1 : Nat → UInt8)) same) _)

/-- A pixel of the second tile of a column has changed its colour. -/
theorem detect_changes_misses :
    ¬DetectsAll (spot 1 (64 / 2 * iStride 64 1 + 0 / 2)) blank 64 ⟨0, 0, 64, 128⟩ := by
  intro found
  have rows := detects_second (by decide) ⟨rfl, rfl⟩ (by simp [Has]) found
  exact absurd rows.1 (by decide)

end KvmServer.Codec
