import Mathlib

/-! # The two frames of AVC444 (`primitives/prim_YUV.c`)

A frame has planes of rows, and no row reaches into the next one: each is as long as the columns
that are read.  Width and height are even, so that the loops over two rows have four pixels in
every turn. -/

namespace KvmServer.Codec

abbrev Frame444 := Nat → Nat → Nat → UInt8

structure Bgrx where
  (b g r : UInt8)

def rgb2Y (p : Bgrx) : UInt8 := UInt8.ofNat ((54 * p.r.toNat + 183 * p.g.toNat + 18 * p.b.toNat) >>> 8)

def rgb2U (p : Bgrx) : UInt8 :=
    UInt8.ofNat (((-29 * p.r.toNat - 99 * p.g.toNat + 128 * p.b.toNat : Int) >>> 8) + 128).toNat

def rgb2V (p : Bgrx) : UInt8 :=
    UInt8.ofNat (((128 * p.r.toNat - 116 * p.g.toNat - 12 * p.b.toNat : Int) >>> 8) + 128).toNat

def sample : Nat → Bgrx → UInt8
  | 0 => rgb2Y
  | 1 => rgb2U
  | _ => rgb2V

variable (width height : Nat) (image : Nat → Nat → Bgrx) (old dst aux luma : Frame444)

def blockMean (p i j : Nat) : UInt8 :=
  UInt8.ofNat (((sample p (image (2 * i) (2 * j))).toNat + (sample p (image (2 * i) (2 * j + 1))).toNat +
    (sample p (image (2 * i + 1) (2 * j))).toNat + (sample p (image (2 * i + 1) (2 * j + 1))).toNat) / 4)

def lumaFrame : Frame444 := fun p y x => if p = 0 then sample 0 (image y x) else blockMean image p y x

def lumaToYuv444 : Frame444 := fun p y x => if p = 0 then luma 0 y x else luma p (y / 2) (x / 2)

/-! ## Version 1 -/

def auxRowsV1 : Nat → Nat → Nat → UInt8
  | 0, row, x => old 0 row x
  | i + 1, row, x =>
    let n := i / 8 * 8 + i
    if row = n ∧ x < width then rgb2U (image (2 * i + 1) x)
    else if row = n + 8 ∧ x < width then rgb2V (image (2 * i + 1) x)
    else auxRowsV1 i row x

/-- The auxiliary frame of `general_RGBToAVC444YUV_BGRX`; the last planes have `b6` and `b7`. -/
def auxFrameV1 : Frame444 := fun p =>
  if p = 0 then auxRowsV1 width image old (height / 2) else fun i j =>
    sample p (image (2 * i) (2 * j + 1))

def copyRow (p pos row : Nat) (dst : Frame444) : Frame444 := fun q y x =>
  if q = p ∧ y = pos ∧ pos < height ∧ x < width then aux 0 row x else dst q y x

/-- The first loop of `general_ChromaV1ToYUV444`, with its two counters. -/
def chromaRowsV1 : Nat → Nat × Nat × Frame444
  | 0 => (0, 0, dst)
  | y + 1 =>
    let (uY, vY, dst) := chromaRowsV1 y
    if y % 16 < (16 + 1) / 2 then (uY + 1, vY, copyRow width height aux 1 (2 * uY + 1) y dst)
    else (uY, vY + 1, copyRow width height aux 2 (2 * vY + 1) y dst)

def chromaV1ToYuv444 : Frame444 := fun p y x =>
  if p ≠ 0 ∧ y % 2 = 0 ∧ x % 2 = 1 then aux p (y / 2) (x / 2)
  else (chromaRowsV1 width height dst aux (height + 16 - height % 16)).2.2 p y x

variable {width height image old dst aux} {p c i k x y : Nat}

abbrev auxRow (p i : Nat) : Nat := i / 8 * 8 + i + 8 * (p - 1)

theorem auxRowsV1_read (chr : p = 1 ∨ p = 2) (lt : i < k) (column : x < width) :
    auxRowsV1 width image old k (auxRow p i) x = sample p (image (2 * i + 1) x) := by
  induction k with
  | zero => cases lt
  | succ k ih =>
    simp only [auxRowsV1, auxRow] at ih ⊢
    by_cases last : i = k
    · subst last
      obtain rfl | rfl := chr
      · rw [if_pos ⟨rfl, column⟩]
        rfl
      · rw [if_neg (by omega), if_pos ⟨rfl, column⟩]
        rfl
    · rw [if_neg (by omega), if_neg (by omega), ih (by omega)]

/-- In each group of 16 rows the first eight go to U. -/
theorem chromaRowsV1_eq (k : Nat) : ∃ rows, chromaRowsV1 width height dst aux k =
      (k / 16 * 8 + min 8 (k % 16), k / 16 * 8 + (k % 16 - 8), rows) ∧ ∀ p y x, rows p y x =
      if (p = 1 ∨ p = 2) ∧ y % 2 = 1 ∧ y < height ∧ x < width ∧
      auxRow p (y / 2) < k then aux 0 (auxRow p (y / 2)) x else dst p y x := by
  induction k with
  | zero => exact ⟨dst, rfl, by simp⟩
  | succ k ih =>
    -- row `k` of the auxiliary frame is one row of U or V
    obtain ⟨rows, eq, read⟩ := ih
    simp only [chromaRowsV1, eq]
    split <;> refine ⟨_, Prod.ext (by dsimp only; omega) (Prod.ext (by dsimp only; omega) rfl),
      fun p y x => ?_⟩ <;>
    · simp only [copyRow, read, auxRow]
      split
      · next here => rw [if_pos (by omega), show y / 2 / 8 * 8 + y / 2 + 8 * (p - 1) = k by omega]
      · exact if_congr (by omega) rfl rfl

/-- Whatever was in the auxiliary frame before. -/
theorem avc444_v1_restores (width height : Nat) (image : Nat → Nat → Bgrx) (old : Frame444)
    (even : width % 2 = 0 ∧ height % 2 = 0) (p x y : Nat) (inside : p < 3 ∧ x < width ∧ y < height) :
    chromaV1ToYuv444 width height (lumaToYuv444 (lumaFrame image))
    (auxFrameV1 width height image old) p y x = if p = 0 ∨ x % 2 = 1 ∨
      y % 2 = 1 then sample p (image y x) else blockMean image p (y / 2) (x / 2) := by
  obtain ⟨rows, eq, read⟩ :=
    @chromaRowsV1_eq width height (lumaToYuv444 (lumaFrame image)) (auxFrameV1 width height image old)
    (height + 16 - height % 16)
  simp only [chromaV1ToYuv444, eq, read]
  by_cases luma : p = 0
  · subst luma
    simp [lumaToYuv444, lumaFrame]
  have chr : p = 1 ∨ p = 2 := by omega
  by_cases odd : y % 2 = 1
  · rw [if_neg (by omega), if_pos (by simp only [auxRow]; omega), if_pos (by omega)]
    refine (auxRowsV1_read chr (by omega) inside.2.1).trans ?_
    rw [show 2 * (y / 2) + 1 = y by omega]
  · by_cases right : x % 2 = 1
    · rw [if_pos (by omega), if_pos (by omega)]
      simp only [auxFrameV1, luma, if_false]
      rw [show 2 * (y / 2) = y by omega, show 2 * (x / 2) + 1 = x by omega]
    · rw [if_neg (by omega), if_neg (by omega), if_neg (by omega)]
      simp only [lumaToYuv444, lumaFrame, luma, if_false]

/-- The V sample in the last corner of a picture of 16 by 16 pixels is restored. -/
theorem avc444_v1_restores_corner : let image := fun y x : Nat => Bgrx.mk (UInt8.ofNat x) (UInt8.ofNat y) 0
    chromaV1ToYuv444 16 16 (lumaToYuv444 (lumaFrame image))
      (auxFrameV1 16 16 image fun _ _ _ => 0) 2 15 15 = rgb2V ⟨15, 15, 0⟩ :=
  avc444_v1_restores 16 16 _ _ (by decide) 2 15 15 (by decide)

/-! ## Version 2 -/

def sideBySide (half : Nat) (pixels : Nat → Bgrx) (old : Nat → UInt8) (x : Nat) : UInt8 :=
  if x < half then rgb2U (pixels x) else if x < half + half then rgb2V (pixels (x - half)) else old x

/-- The auxiliary frame of `general_RGBToAVC444YUVv2_BGRX`: odd columns, and of the odd rows every
fourth column from 0 and from 2 on. -/
def auxFrameV2 (width : Nat) (image : Nat → Nat → Bgrx) (old : Frame444) : Frame444 := fun p y =>
  if p = 0 then sideBySide (width / 2) (fun x => image y (2 * x + 1)) (old 0 y)
  else sideBySide (width / 4) (fun x => image (2 * y + 1) (4 * x + 2 * (p - 1))) (old p y)

def chromaV2ToYuv444 (nTotalWidth : Nat) (dst aux : Frame444) : Frame444 := fun p y x =>
  if p = 0 then dst p y x
  else if x % 2 = 1 then aux 0 y (x / 2 + (p - 1) * (nTotalWidth / 2))
  else if y % 2 = 1 then aux (1 + x % 4 / 2) (y / 2) (x / 4 + (p - 1) * (nTotalWidth / 4))
  else dst p y x

/-- The width that `yuv444_combine_work_callback` passes on. -/
def alignedWidth (width : Nat) : Nat := width + if width % 32 ≠ 0 then 32 - width % 32 else 0

def RestoresV2 (width height : Nat) (image : Nat → Nat → Bgrx) (old : Frame444) : Prop :=
  ∀ p x y, p = 1 ∨ p = 2 → x < width → y < height → x % 2 = 1 ∨ y % 2 = 1 →
    chromaV2ToYuv444 (alignedWidth width) (lumaToYuv444 (lumaFrame image))
      (auxFrameV2 width image old) p y x =
      sample p (image y x)

theorem sideBySide_read {half : Nat} {pixels : Nat → Bgrx} {old : Nat → UInt8}
    (chr : p = 1 ∨ p = 2) (lt : x < half) :
    sideBySide half pixels old (x + (p - 1) * half) = sample p (pixels x) := by
  obtain rfl | rfl := chr
  · simp [sideBySide, lt, sample]
  · simp [sideBySide, lt, sample, not_lt.mpr (Nat.le_add_left half x)]

def redPixel (y x : Nat) : Bgrx := ⟨0, 0, if y = 0 ∧ x = 1 then 255 else 0⟩

theorem redPixel_lost (four : width % 4 = 0) (some : 0 < width ∧ 0 < height) (off : width % 32 ≠ 0) :
    ¬RestoresV2 width height redPixel fun _ _ _ => 128 := by
  intro restores
  have red := restores 2 1 0 (Or.inr rfl) (by omega) some.2 (Or.inl rfl)
  have behind : alignedWidth width / 2 ≥ width / 2 + 2 := by
    rw [alignedWidth, if_pos off]
    omega
  simp [chromaV2ToYuv444, auxFrameV2, sideBySide,
    show ¬alignedWidth width / 2 < width / 2 by omega] at red
  -- what is read is V of another pixel, or was there before
  split at red
  · rw [redPixel, if_neg (by omega)] at red
    revert red
    decide
  · revert red
    decide

/-- Every picture is restored exactly when its columns come in blocks of 32. -/
theorem avc444_v2_restores_iff (width height : Nat) (sizes : width % 4 = 0 ∧ height % 2 = 0)
    (some : 0 < width ∧ 0 < height) :
    (∀ image old, RestoresV2 width height image old) ↔ width % 32 = 0 := by
  constructor
  · exact fun all => Decidable.byContradiction fun off => redPixel_lost sizes.1 some off (all _ _)
  · intro whole image old p x y chr column row odd
    have same : alignedWidth width = width := by simp [alignedWidth, whole]
    rw [same, chromaV2ToYuv444, if_neg (by omega)]
    split
    · rw [auxFrameV2, if_pos rfl, sideBySide_read chr (by omega), show 2 * (x / 2) + 1 = x by omega]
    · rw [if_pos (by omega), auxFrameV2, if_neg (by omega), sideBySide_read chr (by omega),
        show 2 * (y / 2) + 1 = y by omega, show 4 * (x / 4) + 2 * (1 + x % 4 / 2 - 1) = x by omega]

/-- A row of 32 pixels is restored. -/
theorem avc444_v2_restores_row : RestoresV2 32 2 redPixel fun _ _ _ => 0 :=
  (avc444_v2_restores_iff 32 2 (by decide) (by decide)).mpr rfl _ _

/-- A red picture four pixels wide is not restored over a frame of 128. -/
theorem avc444_v2_not_restored : ¬RestoresV2 4 2 redPixel fun _ _ _ => 128 :=
  redPixel_lost (by decide) (by decide) (by decide)

end KvmServer.Codec
