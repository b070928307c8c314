import KvmServer.Lib.Extent
import KvmServer.Shadow.Capture

/-! # The comparison of frames is exact for blocks

A block differs when one of its visible pixels does.  The loops find the first and the last block
row and column that differ, so the rectangle covers every pixel that differs and none of its sides
can be moved by a block. -/

namespace KvmServer.Shadow
open Lib Nat

/-! ## Pixels -/

section Pixels
variable (format : Nat)

def Frame.pixelByte (frame : Frame) (x y k : Nat) : Option UInt8 :=
  frame.pData (y * frame.nStep + x * freerdpGetBytesPerPixel format + k)

def Frame.Visible (frame : Frame) (nWidth nHeight : Nat) : Prop :=
  ∀ x y k, x < nWidth → y < nHeight → k < freerdpGetBytesPerPixel format →
    (frame.pixelByte format x y k).isSome

def PixelSame (frame1 frame2 : Frame) (x y : Nat) : Prop :=
  ∀ k, k < freerdpGetBytesPerPixel format → frame1.pixelByte format x y k = frame2.pixelByte format x y k

def BlockDiffers (frame1 frame2 : Frame) (nWidth nHeight ty tx : Nat) : Prop :=
  ∃ x y, x < nWidth ∧ y < nHeight ∧ x / 16 = tx ∧ y / 16 = ty ∧ ¬PixelSame format frame1 frame2 x y

end Pixels

/-! ## One block -/

theorem memcmpEqual_spec {a b : Nat → Option UInt8} {i j n : Nat}
    (inside : ∀ k, k < n → (a (i + k)).isSome ∧ (b (j + k)).isSome) :
    ∃ same, memcmpEqual a b i j n = .ok same ∧ (same = true ↔ ∀ k, k < n → a (i + k) = b (j + k)) := by
  induction n generalizing i j with
  | zero => exact ⟨true, rfl, iff_of_true rfl fun k lo => absurd lo (not_lt_zero k)⟩
  | succ n ih =>
    obtain ⟨x, fst⟩ := Option.isSome_iff_exists.mp (inside 0 (succ_pos n)).1
    obtain ⟨y, second⟩ := Option.isSome_iff_exists.mp (inside 0 (succ_pos n)).2
    rw [add_zero] at fst second
    obtain ⟨rest, cmp, restSame⟩ := @ih (i + 1) (j + 1) fun k lo => by
      have next := inside (k + 1) (succ_lt_succ lo)
      rwa [add_comm k, ← add_assoc, ← add_assoc] at next
    refine ⟨x == y && rest, ?_, ?_⟩
    · rw [memcmpEqual, fst, second]
      simp only [cmp]
      rfl
    rw [Bool.and_eq_true, beq_iff_eq, restSame]
    constructor
    · rintro ⟨rfl, later⟩ k lo
      cases k with
      | zero => rw [add_zero, add_zero, fst, second]
      | succ k =>
        rw [add_comm k, ← add_assoc, ← add_assoc]
        exact later k (lt_of_succ_lt_succ lo)
    intro all
    constructor
    · have head := all 0 (succ_pos n)
      rw [add_zero, add_zero, fst, second] at head
      exact Option.some.inj head
    intro k lo
    rw [add_assoc, add_assoc, add_comm 1]
    exact all (k + 1) (succ_lt_succ lo)

theorem forall_pixels {count bytes : Nat} {P : Nat → Nat → Prop} :
    (∀ k, k < count * bytes → P (k / bytes) (k % bytes)) ↔ ∀ x k, x < count → k < bytes → P x k := by
  constructor
  · intro all x k cols lo
    have room : x * bytes + k < count * bytes := by
      calc x * bytes + k < x * bytes + bytes := Nat.add_lt_add_left lo _
        _ = (x + 1) * bytes := (succ_mul x bytes).symm
        _ ≤ count * bytes := Nat.mul_le_mul_right bytes cols
    have pixel := all (x * bytes + k) room
    rwa [mul_comm x, mul_add_div (zero_lt_of_lt lo), div_eq_of_lt lo, add_zero,
      mul_add_mod, mod_eq_of_lt lo] at pixel
  intro all k lo
  have pos : 0 < bytes := Nat.pos_of_ne_zero fun zero => by simp [zero] at lo
  exact all _ _ (Nat.div_lt_of_lt_mul (by rwa [mul_comm])) (mod_lt k pos)

theorem blockEqual_spec {eq : Nat → Nat → Except CaptureStop Bool}
    {nStep1 nStep2 rows p1 p2 : Nat} {RowSame : Nat → Prop}
    (row : ∀ k, k < rows → ∃ same, eq (p1 + k * nStep1) (p2 + k * nStep2) = .ok same ∧
      (same = true ↔ RowSame k)) :
    ∃ same, blockEqual eq nStep1 nStep2 rows p1 p2 = .ok same ∧
    (same = true ↔ ∀ k, k < rows → RowSame k) := by
  induction rows generalizing p1 p2 RowSame with
  | zero => exact ⟨true, rfl, iff_of_true rfl fun k lo => absurd lo (not_lt_zero k)⟩
  | succ rows ih =>
    obtain ⟨same, cmp, fst⟩ := row 0 (succ_pos rows)
    rw [zero_mul, zero_mul, add_zero, add_zero] at cmp
    cases same with
    | false =>
      -- the first row that differs ends the loop
      refine ⟨false, ?_, ?_⟩
      · rw [blockEqual, cmp]
        rfl
      · exact iff_of_false Bool.false_ne_true fun all =>
          Bool.false_ne_true (fst.mpr (all 0 (succ_pos rows)))
    | true =>
      obtain ⟨rest, cmpRest, later⟩ :=
        @ih (p1 + nStep1) (p2 + nStep2) (fun k => RowSame (k + 1)) fun k lo => by
          have next := row (k + 1) (succ_lt_succ lo)
          rwa [succ_mul, succ_mul, add_comm (k * nStep1), add_comm (k * nStep2),
            ← add_assoc, ← add_assoc] at next
      refine ⟨rest, ?_, ?_⟩
      · rw [blockEqual, cmp]
        exact cmpRest
      rw [later]
      constructor
      · intro all k lo
        cases k with
        | zero => exact fst.mp rfl
        | succ k => exact all k (lt_of_succ_lt_succ lo)
      · exact fun all k lo => all (k + 1) (succ_lt_succ lo)

theorem lt_blockExtent_iff {i k total : Nat} (inside : i < (total + 15) / 16) :
    k < blockExtent i ((total + 15) / 16) total ↔ k < 16 ∧ i * 16 + k < total := by
  unfold blockExtent
  dsimp only
  split <;> split at * <;> omega

section Block
variable {diffFormats : PixelEqualFn} {frame1 frame2 : Frame} {format nWid nHgt : Nat}
  (visible1 : frame1.Visible format nWid nHgt) (visible2 : frame2.Visible format nWid nHgt)
include visible1 visible2

theorem compareRow_pixels {tx y count : Nat} (lo : y < nHgt)
    (cols : ∀ x, x < count → tx * 16 + x < nWid) :
    ∃ same, pixelEqualSameFormat frame1
    (y * frame1.nStep + tx * 16 * freerdpGetBytesPerPixel format) format frame2
        (y * frame2.nStep + tx * 16 * freerdpGetBytesPerPixel format) format count = .ok same ∧
      (same = true ↔ ∀ x, x < count → PixelSame format frame1 frame2 (tx * 16 + x) y) := by
  have address (frame : Frame) (k : Nat) :
      frame.pData (y * frame.nStep + tx * 16 * freerdpGetBytesPerPixel format + k) =
        frame.pixelByte format (tx * 16 + k / freerdpGetBytesPerPixel format) y
          (k % freerdpGetBytesPerPixel format) := by
    rw [Frame.pixelByte, add_mul, add_assoc, add_assoc, add_assoc,
      mul_comm (k / freerdpGetBytesPerPixel format), div_add_mod]
  have pos {k : Nat} (inside : k < count * freerdpGetBytesPerPixel format) :
      0 < freerdpGetBytesPerPixel format := Nat.pos_of_ne_zero fun zero => by simp [zero] at inside
  obtain ⟨same, cmp, bs⟩ :=
    @memcmpEqual_spec frame1.pData frame2.pData (y * frame1.nStep + tx * 16 * freerdpGetBytesPerPixel format)
    (y * frame2.nStep + tx * 16 * freerdpGetBytesPerPixel format)
      (count * freerdpGetBytesPerPixel format)
    fun k inside => by
      have col :=
        cols _ (Nat.div_lt_of_lt_mul (by rwa [mul_comm]) : k / freerdpGetBytesPerPixel format < count)
      have part := mod_lt k (pos inside)
      rw [address frame1 k, address frame2 k]
      exact ⟨visible1 _ _ _ col lo part, visible2 _ _ _ col lo part⟩
  refine ⟨same, ?_, ?_⟩
  · rw [pixelEqualSameFormat, if_neg (not_not_intro rfl)]
    exact cmp
  rw [bs]
  have split := @forall_pixels count (freerdpGetBytesPerPixel format) fun x k =>
    frame1.pixelByte format (tx * 16 + x) y k = frame2.pixelByte format (tx * 16 + x) y k
  constructor
  · intro all x col k part
    refine split.mp ?_ x k col part
    intro k inside
    rw [← address frame1 k, ← address frame2 k]
    exact all k inside
  intro all k inside
  rw [address frame1 k, address frame2 k]
  exact split.mpr (fun x k col part => all x col k part) k inside

theorem compareBlock_spec {ty tx : Nat} (row : ty < (nHgt + 15) / 16) (col : tx < (nWid + 15) / 16) :
    ∃ same, compareBlock diffFormats frame1 format nWid nHgt frame2 format ty tx = .ok same ∧
      (same = true ↔ ¬BlockDiffers format frame1 frame2 nWid nHgt ty tx) := by
  obtain ⟨same, cmp, rows⟩ := @blockEqual_spec
    (fun p1 p2 => getComparisonFn diffFormats format format frame1 p1 format frame2 p2 format
      (blockExtent tx ((nWid + 15) / 16) nWid))
    frame1.nStep frame2.nStep (blockExtent ty ((nHgt + 15) / 16) nHgt)
    (ty * 16 * frame1.nStep + tx * 16 * freerdpGetBytesPerPixel format)
    (ty * 16 * frame2.nStep + tx * 16 * freerdpGetBytesPerPixel format)
    (fun k => ∀ x, x < blockExtent tx ((nWid + 15) / 16) nWid →
      PixelSame format frame1 frame2 (tx * 16 + x) (ty * 16 + k))
    fun k inside => by
      have pixels := @compareRow_pixels _ _ _ _ _ visible1 visible2 tx (ty * 16 + k)
        (blockExtent tx ((nWid + 15) / 16) nWid) ((lt_blockExtent_iff row).mp inside).2
        fun x within => ((lt_blockExtent_iff col).mp within).2
      rw [add_mul, add_mul, add_right_comm, add_right_comm (ty * 16 * frame2.nStep)] at pixels
      rw [getComparisonFn, if_pos rfl]
      exact pixels
  refine ⟨same, cmp, ?_⟩
  rw [rows]
  constructor
  · rintro all ⟨x, y, insideX, insideY, rfl, rfl, diff⟩
    have pixel := all (y % 16) ((lt_blockExtent_iff row).mpr ⟨by omega, by omega⟩) (x % 16)
      ((lt_blockExtent_iff col).mpr ⟨by omega, by omega⟩)
    rw [mul_comm, div_add_mod, mul_comm, div_add_mod] at pixel
    exact diff pixel
  intro none k insideY x insideX
  by_contra diff
  have bdY := (lt_blockExtent_iff row).mp insideY
  have bdX := (lt_blockExtent_iff col).mp insideX
  exact none ⟨tx * 16 + x, ty * 16 + k, bdX.2, bdY.2, by omega, by omega, diff⟩

end Block

/-! ## The loops -/

section Loops
variable (Differs : Nat → Nat → Prop)

def seenColumns (ncol ty tx : Nat) : Set Nat :=
    { x | x < ncol ∧ ∃ y, Differs y x ∧ (y < ty ∨ y = ty ∧ x < tx) }

def seenRows (ncol ty : Nat) : Set Nat := { y | y < ty ∧ ∃ x, x < ncol ∧ Differs y x }

variable {Differs} {ncol ty tx : Nat}

theorem seenColumns_start : seenColumns Differs ncol 0 0 = ∅ := by
  simp [seenColumns]

theorem seenColumns_same (eq : ¬Differs ty tx) :
    seenColumns Differs ncol ty (tx + 1) = seenColumns Differs ncol ty tx := by
  ext x
  constructor
  · rintro ⟨inside, y, diff, hi | ⟨rfl, pre⟩⟩
    · exact ⟨inside, y, diff, .inl hi⟩
    have other : x ≠ tx := fun same => eq (same ▸ diff)
    exact ⟨inside, y, diff, .inr ⟨rfl, by omega⟩⟩
  rintro ⟨inside, y, diff, hi | ⟨rfl, pre⟩⟩
  · exact ⟨inside, y, diff, .inl hi⟩
  · exact ⟨inside, y, diff, .inr ⟨rfl, lt_succ_of_lt pre⟩⟩

theorem seenColumns_differs (inside : tx < ncol) (diff : Differs ty tx) :
    seenColumns Differs ncol ty (tx + 1) = insert tx (seenColumns Differs ncol ty tx) := by
  ext x
  constructor
  · rintro ⟨insideX, y, diffX, hi | ⟨rfl, pre⟩⟩
    · exact .inr ⟨insideX, y, diffX, .inl hi⟩
    by_cases same : x = tx
    · exact .inl same
    · exact .inr ⟨insideX, y, diffX, .inr ⟨rfl, by omega⟩⟩
  rintro (rfl | ⟨insideX, y, diffX, hi | ⟨rfl, pre⟩⟩)
  · exact ⟨inside, ty, diff, .inr ⟨rfl, lt_succ_self x⟩⟩
  · exact ⟨insideX, y, diffX, .inl hi⟩
  · exact ⟨insideX, y, diffX, .inr ⟨rfl, lt_succ_of_lt pre⟩⟩

theorem seenColumns_next : seenColumns Differs ncol ty ncol = seenColumns Differs ncol (ty + 1) 0 := by
  ext x
  constructor
  · rintro ⟨inside, y, diff, hi | ⟨rfl, _⟩⟩
    · exact ⟨inside, y, diff, .inl (lt_succ_of_lt hi)⟩
    · exact ⟨inside, y, diff, .inl (lt_succ_self y)⟩
  rintro ⟨inside, y, diff, hi | ⟨_, pre⟩⟩
  · obtain hi | rfl := Nat.lt_succ_iff_lt_or_eq.mp hi
    · exact ⟨inside, y, diff, .inl hi⟩
    · exact ⟨inside, y, diff, .inr ⟨rfl, inside⟩⟩
  · exact absurd pre (not_lt_zero x)

theorem seenRows_same (eq : ∀ x, x < ncol → ¬Differs ty x) :
    seenRows Differs ncol (ty + 1) = seenRows Differs ncol ty := by
  ext y
  constructor
  · rintro ⟨lo, x, inside, diff⟩
    have other : y ≠ ty := fun same => eq x inside (same ▸ diff)
    exact ⟨by omega, x, inside, diff⟩
  rintro ⟨lo, x, inside, diff⟩
  exact ⟨lt_succ_of_lt lo, x, inside, diff⟩

theorem seenRows_differs {x : Nat} (inside : x < ncol) (diff : Differs ty x) :
    seenRows Differs ncol (ty + 1) = insert ty (seenRows Differs ncol ty) := by
  ext y
  constructor
  · rintro ⟨lo, other⟩
    obtain lo | same := Nat.lt_succ_iff_lt_or_eq.mp lo
    · exact .inr ⟨lo, other⟩
    · exact .inl same
  rintro (rfl | ⟨lo, other⟩)
  · exact ⟨lt_succ_self y, x, inside, diff⟩
  · exact ⟨lt_succ_of_lt lo, other⟩

end Loops

/-- What the loop over the columns knows after `tx` blocks of row `ty`. -/
structure RowInv (Differs : Nat → Nat → Prop) (ncol ty tx : Nat) (s : CompareRow) : Prop where
  columns : Extent (seenColumns Differs ncol ty tx) ncol s.l s.r
  equal : s.rowEqual = true ↔ ∀ x, x < tx → ¬Differs ty x

/-- What the loop over the rows knows after `ty` rows. -/
structure FrameInv (Differs : Nat → Nat → Prop) (ncol nrow ty : Nat) (s : CompareFrame) : Prop where
  columns : Extent (seenColumns Differs ncol ty 0) ncol s.l s.r
  rows : Extent (seenRows Differs ncol ty) nrow s.t s.b
  equal : s.allEqual = true ↔ seenRows Differs ncol ty = ∅

section Frames
variable {diffFormats : PixelEqualFn} {frame1 frame2 : Frame} {fmt nWid nHgt : Nat}
  (visible1 : frame1.Visible fmt nWid nHgt) (visible2 : frame2.Visible fmt nWid nHgt)
include visible1 visible2

theorem compareColumn_spec {ty tx : Nat} (row : ty < (nHgt + 15) / 16) (col : tx < (nWid + 15) / 16)
    {s : CompareRow}
    (inv : RowInv (BlockDiffers fmt frame1 frame2 nWid nHgt) ((nWid + 15) / 16) ty tx s) :
    ∃ s', compareColumn diffFormats frame1 fmt nWid nHgt frame2 fmt ty tx s = .ok s' ∧
      RowInv (BlockDiffers fmt frame1 frame2 nWid nHgt) ((nWid + 15) / 16) ty (tx + 1) s' := by
  obtain ⟨same, cmp, exact⟩ := @compareBlock_spec diffFormats _ _ _ _ _ visible1 visible2 _ _ row col
  cases same with
  | true =>
    have eq := exact.mp rfl
    refine ⟨s, ?_, ?_, ?_⟩
    · rw [compareColumn, cmp]
      rfl
    · rw [seenColumns_same eq]
      exact inv.columns
    rw [inv.equal]
    constructor
    · intro all x lo
      obtain lo | rfl := Nat.lt_succ_iff_lt_or_eq.mp lo
      · exact all x lo
      · exact eq
    · exact fun all x lo => all x (lt_succ_of_lt lo)
  | false =>
    have diff : BlockDiffers fmt frame1 frame2 nWid nHgt ty tx := by
      by_contra eq
      exact Bool.false_ne_true (exact.mpr eq)
    refine ⟨⟨false, if s.l > tx then tx else s.l, if s.r < tx then tx else s.r⟩, ?_, ?_, ?_⟩
    · rw [compareColumn, cmp]
      rfl
    · rw [seenColumns_differs col diff]
      exact inv.columns.insert (le_of_lt col)
    · exact iff_of_false Bool.false_ne_true fun all => all tx (lt_succ_self tx) diff

theorem compareRow_spec {ty : Nat} (row : ty < (nHgt + 15) / 16) {s : CompareFrame}
    (inv : FrameInv (BlockDiffers fmt frame1 frame2 nWid nHgt) ((nWid + 15) / 16)
      ((nHgt + 15) / 16) ty s) :
    ∃ s', compareRow diffFormats frame1 fmt nWid nHgt frame2 fmt ty s = .ok s' ∧
      FrameInv (BlockDiffers fmt frame1 frame2 nWid nHgt) ((nWid + 15) / 16)
      ((nHgt + 15) / 16) (ty + 1) s' := by
  obtain ⟨cols, run, colsInv⟩ :=
    @forRange_ok _ _ (compareColumn diffFormats frame1 fmt nWid nHgt frame2 fmt ty)
    (RowInv (BlockDiffers fmt frame1 frame2 nWid nHgt) ((nWid + 15) / 16) ty) ((nWid + 15) / 16)
    (fun _ _ col colInv => compareColumn_spec visible1 visible2 row col colInv) ⟨true, s.l, s.r⟩
    ⟨inv.columns, iff_of_true rfl fun x lo => absurd lo (not_lt_zero x)⟩
  obtain ⟨rowEq, l, r⟩ := cols
  obtain ⟨seen, eq⟩ := colsInv
  rw [seenColumns_next] at seen
  cases rowEq with
  | true =>
    have same := eq.mp rfl
    refine ⟨{ s with l := l, r := r }, ?_, seen, ?_, ?_⟩
    · rw [compareRow, run]
      rfl
    · rw [seenRows_same same]
      exact inv.rows
    rw [seenRows_same same]
    exact inv.equal
  | false =>
    have got : ∃ x, x < (nWid + 15) / 16 ∧ BlockDiffers fmt frame1 frame2 nWid nHgt ty x := by
      by_contra none
      exact Bool.false_ne_true (eq.mpr fun x inside diff => none ⟨x, inside, diff⟩)
    obtain ⟨x, inside, diff⟩ := got
    refine ⟨⟨false, l, if s.t > ty then ty else s.t, r, if s.b < ty then ty else s.b⟩, ?_, seen, ?_, ?_⟩
    · rw [compareRow, run]
      rfl
    · rw [seenRows_differs inside diff]
      exact inv.rows.insert (le_of_lt row)
    rw [seenRows_differs inside diff]
    exact iff_of_false Bool.false_ne_true fun empty =>
      absurd (empty ▸ Set.mem_insert ty _) (Set.notMem_empty ty)

end Frames

/-- The rectangle covers all that differs, starts at a block, and the blocks along each of its
sides hold something that differs. -/
structure ExactRect (Differs : Nat → Nat → Prop) (nWidth nHeight : Nat) (rect : Rectangle16) : Prop where
  width : rect.left < rect.right ∧ rect.right ≤ nWidth
  height : rect.top < rect.bottom ∧ rect.bottom ≤ nHeight
  covers : ∀ x y, x < nWidth → y < nHeight → Differs x y →
    rect.left ≤ x ∧ x < rect.right ∧ rect.top ≤ y ∧ y < rect.bottom
  aligned : 16 ∣ rect.left ∧ 16 ∣ rect.top
  left : ∃ x y, x < nWidth ∧ y < nHeight ∧ x / 16 = rect.left / 16 ∧ Differs x y
  top : ∃ x y, x < nWidth ∧ y < nHeight ∧ y / 16 = rect.top / 16 ∧ Differs x y
  right : ∃ x y, x < nWidth ∧ y < nHeight ∧ x / 16 = (rect.right - 1) / 16 ∧ Differs x y
  bottom : ∃ x y, x < nWidth ∧ y < nHeight ∧ y / 16 = (rect.bottom - 1) / 16 ∧ Differs x y

theorem captureRect_spec {frame1 frame2 : Frame} {format nWidth nHeight : Nat} (wide : nWidth ≤ 65520)
    (high : nHeight ≤ 65520) {s : CompareFrame}
    (inv : FrameInv (BlockDiffers format frame1 frame2 nWidth nHeight)
      ((nWidth + 15) / 16) ((nHeight + 15) / 16)
      ((nHeight + 15) / 16) s) (diff : s.allEqual = false) : ∃ rect,
        captureRect nWidth nHeight s = .ok rect ∧
      ExactRect (fun x y => ¬PixelSame format frame1 frame2 x y) nWidth nHeight rect := by
  have rowsGot : (seenRows (BlockDiffers format frame1 frame2 nWidth nHeight) ((nWidth + 15) / 16)
      ((nHeight + 15) / 16)).Nonempty := by
    rw [Set.nonempty_iff_ne_empty]
    intro empty
    rw [inv.equal.mpr empty] at diff
    cases diff
  obtain ⟨ty, rowInside, tx, colInside, block⟩ := rowsGot
  obtain ⟨⟨_, _, leftBlock, _⟩, ⟨_, _, rightBlock, _⟩⟩ :=
    inv.columns.attained ⟨tx, colInside, ty, block, .inl rowInside⟩
  obtain ⟨⟨_, _, _, topBlock⟩, ⟨_, _, _, botBlock⟩⟩ :=
    inv.rows.attained ⟨ty, rowInside, tx, colInside, block⟩
  obtain ⟨leftX, leftY, leftX_lt, leftY_lt, _, -, leftDiff⟩ := leftBlock
  obtain ⟨rightX, rightY, rightX_lt, rightY_lt, _, -, rightDiff⟩ := rightBlock
  obtain ⟨topX, topY, topX_lt, topY_lt, -, _, topDiff⟩ := topBlock
  obtain ⟨botX, botY, bottomX_lt, bottomY_lt, -, _, botDiff⟩ := botBlock
  have covers : ∀ x y, x < nWidth → y < nHeight → ¬PixelSame format frame1 frame2 x y →
      (s.l ≤ x / 16 ∧ x / 16 ≤ s.r) ∧ s.t ≤ y / 16 ∧ y / 16 ≤ s.b := by
    intro x y insideX insideY pixel
    have got : BlockDiffers format frame1 frame2 nWidth nHeight (y / 16) (x / 16) :=
      ⟨x, y, insideX, insideY, rfl, rfl, pixel⟩
    exact ⟨inv.columns.inside _ ⟨by omega, y / 16, got, .inl (by omega)⟩,
      inv.rows.inside _ ⟨by omega, x / 16, by omega, got⟩⟩
  have topCov := covers topX topY topX_lt topY_lt topDiff
  have right_eq :
      (if (s.r + 1) * 16 > nWidth then nWidth else (s.r + 1) * 16) = min ((s.r + 1) * 16) nWidth := by
    split <;> omega
  have bottom_eq :
      (if (s.b + 1) * 16 > nHeight then nHeight else (s.b + 1) * 16) = min ((s.b + 1) * 16) nHeight := by
    split <;> omega
  refine ⟨⟨s.l * 16, s.t * 16, min ((s.r + 1) * 16) nWidth, min ((s.b + 1) * 16) nHeight⟩, ?_, ?_⟩
  · -- none of the assertions fails, since no block lies beyond 65520
    rw [captureRect, captureAssert, if_pos (by omega), captureAssert, if_pos (by omega), captureAssert,
      if_pos (by omega), captureAssert, if_pos (by omega), captureAssert,
      if_pos (by omega), captureAssert, if_pos (by omega), right_eq, bottom_eq]
    rfl
  exact {
    width := ⟨by dsimp only; omega, min_le_right _ _⟩
    height := ⟨by dsimp only; omega, min_le_right _ _⟩
    covers := by
      intro x y insideX insideY pixel
      have blocks := covers x y insideX insideY pixel
      dsimp only
      omega
    aligned := ⟨Nat.dvd_mul_left 16 s.l, Nat.dvd_mul_left 16 s.t⟩
    left := ⟨leftX, leftY, leftX_lt, leftY_lt, by dsimp only; omega, leftDiff⟩
    top := ⟨topX, topY, topX_lt, topY_lt, by dsimp only; omega, topDiff⟩
    right := ⟨rightX, rightY, rightX_lt, rightY_lt, by dsimp only; omega, rightDiff⟩
    bottom := ⟨botX, botY, bottomX_lt, bottomY_lt, by dsimp only; omega, botDiff⟩ }

/-- No byte outside of the pixels is looked at; the result is 0 exactly if all pixels are equal,
and otherwise the rectangle is exact. -/
theorem shadow_capture_compare_exact (differentFormats : PixelEqualFn) {frame1 frame2 : Frame}
    {format nWidth nHeight : Nat} (wide : 1 ≤ nWidth ∧ nWidth ≤ 65520)
    (high : 1 ≤ nHeight ∧ nHeight ≤ 65520)
    (visible1 : frame1.Visible format nWidth nHeight) (visible2 : frame2.Visible format nWidth nHeight) :
    ∃ status rect,
      shadowCaptureCompareWithFormat differentFormats frame1 format nWidth nHeight frame2 format =
      .ok (status, rect) ∧
      (status = 0 ↔ ∀ x y, x < nWidth → y < nHeight → PixelSame format frame1 frame2 x y) ∧
      (status ≠ 0 → ExactRect (fun x y => ¬PixelSame format frame1 frame2 x y) nWidth nHeight rect) := by
  have st : FrameInv (BlockDiffers format frame1 frame2 nWidth nHeight)
    ((nWidth + 15) / 16) ((nHeight + 15) / 16) 0
      ⟨true, (nWidth + 15) / 16 + 1, (nHeight + 15) / 16 + 1, 0, 0⟩ := by
    have noRows :
        seenRows (BlockDiffers format frame1 frame2 nWidth nHeight) ((nWidth + 15) / 16) 0 = ∅ := by
      simp [seenRows]
    refine ⟨?_, ?_, iff_of_true rfl noRows⟩
    · rw [seenColumns_start]
      exact extent_empty (Nat.lt_succ_self _)
    rw [noRows]
    exact extent_empty (Nat.lt_succ_self _)
  obtain ⟨s, run, inv⟩ :=
    @forRange_ok _ _ (compareRow differentFormats frame1 format nWidth nHeight frame2 format)
    (FrameInv (BlockDiffers format frame1 frame2 nWidth nHeight) ((nWidth + 15) / 16)
      ((nHeight + 15) / 16))
    ((nHeight + 15) / 16) (fun _ _ row frInv => compareRow_spec visible1 visible2 row frInv) _ st
  cases eq : s.allEqual with
  | true =>
    refine ⟨0, {}, ?_, ?_, fun nz => absurd rfl nz⟩
    · rw [shadowCaptureCompareWithFormat]
      simp only [run]
      change (if s.allEqual then _ else _) = _
      rw [if_pos eq]
      rfl
    refine iff_of_true rfl fun x y insideX insideY => ?_
    by_contra diff
    have empty := inv.equal.mp eq
    have mem : y / 16 ∈ seenRows (BlockDiffers format frame1 frame2 nWidth nHeight) ((nWidth + 15) / 16)
        ((nHeight + 15) / 16) := ⟨by omega, x / 16, by omega, x, y, insideX, insideY, rfl, rfl, diff⟩
    rw [empty] at mem
    exact absurd mem (Set.notMem_empty _)
  | false =>
    obtain ⟨rect, res, exact⟩ := captureRect_spec wide.2 high.2 inv eq
    refine ⟨1, rect, ?_, ?_, fun _ => exact⟩
    · rw [shadowCaptureCompareWithFormat]
      simp only [run]
      change (if s.allEqual then _ else _) = _
      rw [if_neg (Bool.eq_false_iff.mp eq), res]
      rfl
    obtain ⟨x, y, insideX, insideY, -, diff⟩ := exact.left
    exact iff_of_false Nat.one_ne_zero fun all => diff (all x y insideX insideY)

/-- Two frames of 17 by 1 pixels with a byte each, of which the last one differs. -/
theorem shadow_capture_compare_exact_last_pixel :
    ∃ status rect, shadowCaptureCompareWithFormat pixelEqualSameFormat
        ⟨fun i => if i < 17 then some 0 else none, 17⟩ 0x08000000 17 1
        ⟨fun i => if i < 17 then some (if i = 16 then 1 else 0) else none, 20⟩ 0x08000000 =
        .ok (status, rect) ∧ (status = 0 ↔ ∀ x y, x < 17 → y < 1 →
        PixelSame 0x08000000 ⟨fun i => if i < 17 then some 0 else none, 17⟩
        ⟨fun i => if i < 17 then some (if i = 16 then 1 else 0) else none, 20⟩ x y) ∧
      (status ≠ 0 →
        ExactRect (fun x y => ¬PixelSame 0x08000000 ⟨fun i => if i < 17 then some 0 else none, 17⟩
        ⟨fun i => if i < 17 then some (if i = 16 then 1 else 0) else none, 20⟩ x y) 17 1 rect) := by
  have oneByte : freerdpGetBytesPerPixel 0x08000000 = 1 := by decide
  apply shadow_capture_compare_exact pixelEqualSameFormat ⟨by decide, by decide⟩ ⟨by decide, by decide⟩
  all_goals
    intro x y k _ _ _
    rw [Frame.pixelByte, oneByte]
    simp only
    rw [if_pos (by omega)]
    rfl

end KvmServer.Shadow
