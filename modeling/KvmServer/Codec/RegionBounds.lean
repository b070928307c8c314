import KvmServer.Codec.Region

/-! # Where the rectangles of a region end

Union and intersection only compute with the coordinates they are given, so nothing reaches beyond
the rectangles that go in.  This also holds for empty rectangles, with which the bands of a region
need no longer be in order. -/

namespace KvmServer.Codec
open List

section Lists
variable {P : Rectangle16 → Prop} {rs : List Rectangle16}

theorem bandItems_forall (all : ∀ rect ∈ rs, P rect) : ∀ rect ∈ bandItems rs, P rect := by
  intro rect member
  cases rs with
  | nil => cases member
  | cons _ _ => exact all rect ((takeWhile_sublist _).mem member)

theorem nextBand_forall (all : ∀ rect ∈ rs, P rect) : ∀ rect ∈ nextBand rs, P rect := by
  intro rect member
  cases rs with
  | nil => cases member
  | cons _ _ => exact all rect ((dropWhile_sublist _).mem member)

theorem mem_bandItems_top {first rect : Rectangle16} {others : List Rectangle16}
    (mem : rect ∈ bandItems (first :: others)) : rect.top = first.top := by
  simpa using mem_takeWhile_imp mem

theorem simplifyBands_forall (merge : ∀ rect first second, P rect → P first →
    P second → rect.top = first.top → first.bottom = second.top →
      P { rect with bottom := second.bottom })
    (fuel : Nat) (all : ∀ rect ∈ rs, P rect) : ∀ rect ∈ simplifyBands fuel rs, P rect := by
  induction fuel generalizing rs with
  | zero => exact all
  | succ fuel ih =>
    have items := bandItems_forall all
    have next := nextBand_forall all
    rw [simplifyBands.eq_def]
    dsimp only
    split
    · next first _ second _ after =>
      rw [after] at next
      split
      · next both =>
        apply ih
        intro rect mem
        obtain here | later := mem_append.mp mem
        · obtain ⟨item, inside, rfl⟩ := mem_map.mp here
          exact merge item first second (items item inside) (all first mem_cons_self)
            (next second mem_cons_self) (mem_bandItems_top inside) both.1
        · exact next rect (mem_of_mem_drop later)
      intro rect mem
      obtain here | later := mem_append.mp mem
      · exact items rect here
      · exact ih next rect later
    · exact all

end Lists

/-! ## Right and bottom edges -/

structure Rectangle16.Within (width height : Nat) (rect : Rectangle16) : Prop where
  right : rect.right ≤ width
  bottom : rect.bottom ≤ height

section Within
variable {width height : Nat} {rect : Rectangle16} {rects : List Rectangle16}
variable {newTop newBot : Nat} {fst : Rectangle16} {region : Region16}

section
variable (bot : newBot ≤ height)
include bot

theorem copyBand_within (all : ∀ src ∈ rects, src.Within width height) :
    ∀ dst ∈ copyBand newTop newBot rects, dst.Within width height := by
  intro dst mem
  obtain ⟨src, inside, rfl⟩ := mem_map.mp mem
  exact ⟨(all src inside).right, bot⟩

section
variable (within : rect.right ≤ width) (all : ∀ src ∈ rects, src.Within width height)
include within all

theorem copyBandOverlap_within {st : Nat} :
    ∀ dst ∈ copyBandOverlap newTop newBot rect st rects, dst.Within width height := by
  induction rects with
  | nil =>
    intro dst mem
    cases mem_singleton.mp mem
    exact ⟨within, bot⟩
  | cons src band ih =>
    have later : ∀ src ∈ band, src.Within width height :=
      fun src inside => all src (mem_cons_of_mem _ inside)
    rw [copyBandOverlap]
    split
    · exact ih later
    split
    · exact forall_mem_cons.mpr ⟨⟨(all src mem_cons_self).right, bot⟩, copyBand_within bot later⟩
    · exact forall_mem_cons.mpr ⟨⟨within, bot⟩, copyBand_within bot all⟩

theorem copyBandWithUnion_within :
    ∀ dst ∈ copyBandWithUnion newTop newBot rect rects, dst.Within width height := by
  induction rects with
  | nil =>
    intro dst mem
    cases mem_singleton.mp mem
    exact ⟨within, bot⟩
  | cons src _ ih =>
    rw [copyBandWithUnion]
    split
    · exact forall_mem_cons.mpr ⟨⟨(all src mem_cons_self).right, bot⟩,
        ih fun src inside => all src (mem_cons_of_mem _ inside)⟩
    · exact copyBandOverlap_within bot within all

end

end

section
variable (within : rect.Within width height)
include within

theorem unionBand_within (bottom : fst.bottom ≤ height)
    (all : ∀ src ∈ rects, src.Within width height) :
    ∀ dst ∈ unionBand rect fst rects, dst.Within width height := by
  have items := bandItems_forall all
  have down := within.bottom
  rw [unionBand]
  split
  · exact copyBand_within bottom items
  · next splits =>
    simp only [bandStays, decide_eq_true_eq, not_or, not_le] at splits
    have merged : (if rect.bottom < fst.bottom then rect.bottom else fst.bottom) ≤ height := by
      split <;> assumption
    intro dst mem
    simp only [mem_append] at mem
    obtain (up | merge) | lower := mem
    · split at up
      · exact copyBand_within (by omega) items dst up
      · cases up
    · exact copyBandWithUnion_within merged within.right items dst merge
    split at lower
    · exact copyBand_within bottom items dst lower
    · cases lower

theorem unionGap_within : ∀ dst ∈ unionGap rect fst rects, dst.Within width height := by
  have down := within.bottom
  rw [unionGap]
  split
  · simp
  split
  · intro dst mem
    cases mem_singleton.mp mem
    exact ⟨within.right, by dsimp only; omega⟩
  · simp

theorem unionBands_within (fuel : Nat) (all : ∀ src ∈ rects, src.Within width height) :
    ∀ dst ∈ unionBands rect fuel rects, dst.Within width height := by
  induction fuel generalizing rects with
  | zero =>
    cases rects with
    | nil | cons fst rest => simp [unionBands]
  | succ fuel ih =>
    cases rects with
    | nil => simp [unionBands]
    | cons fst rest =>
      intro dst mem
      simp only [unionBands, mem_append] at mem
      obtain (band | gap) | later := mem
      · exact unionBand_within within (all fst mem_cons_self).bottom all dst band
      · exact unionGap_within within dst gap
      · exact ih (nextBand_forall all) dst later

end

structure Region16.Within (width height : Nat) (region : Region16) : Prop where
  extents : region.extents.Within width height
  rects : ∀ rect ∈ region.rects, rect.Within width height

theorem region16Init_within : region16Init.Within width height :=
  ⟨⟨Nat.zero_le _, Nat.zero_le _⟩, nofun⟩

theorem region16UnionRect_within (inside : region.Within width height)
    (within : rect.Within width height) : (region16UnionRect region rect).Within width height := by
  obtain ⟨extents, all⟩ := inside
  have down := within.bottom
  rw [region16UnionRect]
  split
  · refine ⟨within, fun dst mem => ?_⟩
    cases mem_singleton.mp mem
    exact within
  refine ⟨⟨Nat.max_le.mpr ⟨within.right, extents.right⟩,
    Nat.max_le.mpr ⟨within.bottom, extents.bottom⟩⟩, ?_⟩
  apply simplifyBands_forall
  · intro rect _ _ here _ there _ _
    exact ⟨here.right, there.bottom⟩
  intro dst mem
  simp only [mem_append] at mem
  obtain (hi | mid) | below := mem
  · split at hi
    · cases mem_singleton.mp hi
      exact ⟨within.right, by dsimp only; omega⟩
    · cases hi
  · exact unionBands_within within _ all dst mid
  split at below
  · cases mem_singleton.mp below
    exact ⟨within.right, within.bottom⟩
  · cases below

structure Rectangle16.PieceOf (bounds piece : Rectangle16) : Prop where
  across : piece.left < piece.right
  down : piece.top < piece.bottom
  left : bounds.left ≤ piece.left
  top : bounds.top ≤ piece.top
  right : piece.right ≤ bounds.right
  bottom : piece.bottom ≤ bounds.bottom

theorem rectanglesIntersection_piece {r1 r2 dst : Rectangle16}
    (common : rectanglesIntersection r1 r2 = some dst)
    (within : r1.Within width height) : Rectangle16.PieceOf r2 dst ∧ dst.Within width height := by
  obtain ⟨right, bottom⟩ := within
  rw [rectanglesIntersection] at common
  split at common
  · next meets =>
    cases common
    exact ⟨⟨meets.1, meets.2, Nat.le_max_right _ _, Nat.le_max_right _ _,
      min_le_right _ _, min_le_right _ _⟩,
      ⟨(min_le_left _ _).trans right, (min_le_left _ _).trans bottom⟩⟩
  · cases common

theorem region16IntersectRect_piece (inside : region.Within width height) (rect : Rectangle16) :
    ∀ piece ∈ (region16IntersectRect region rect).rects, Rectangle16.PieceOf rect piece ∧
    piece.Within width height := by
  obtain ⟨extents, all⟩ := inside
  rw [region16IntersectRect]
  split
  · intro piece member
    cases member
  · split
    · next _ eq =>
      intro piece member
      cases mem_singleton.mp member
      exact rectanglesIntersection_piece eq extents
    intro piece member
    cases member
  apply simplifyBands_forall
  · rintro _ _ _ ⟨here, right, -⟩ ⟨hi, -⟩ ⟨there, -, bottom⟩ top _
    have between := hi.down
    have lo := there.down
    exact ⟨⟨here.across, by dsimp only; omega, here.left, here.top, here.right, there.bottom⟩,
      ⟨right, bottom⟩⟩
  intro piece member
  obtain ⟨src, taken, eq⟩ := mem_filterMap.mp member
  exact rectanglesIntersection_piece eq (all src ((takeWhile_sublist _).mem taken))

end Within

end KvmServer.Codec
