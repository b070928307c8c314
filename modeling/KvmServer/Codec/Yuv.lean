import KvmServer.Codec.Region

/-! # The worker threads of `codec/yuv.c`

Submitting a work object hands over one rectangle.  The pool takes every object and finishes it. -/

namespace KvmServer.Codec
open List Rectangle16

/-- The loop of `pool_decode_rect` with threads: one counter goes through the rectangles and
through the work objects. `none` is a loop of more than `fuel` turns. -/
def poolDecodeRect (workObjectCount : Nat) (regionRects : List Rectangle16) :
    Nat → Nat → List Rectangle16 → Option (List Rectangle16)
  | 0, _, _ => none
  | fuel + 1, waitCount, submitted =>
    if waitCount < regionRects.length then
      let waitCount := if workObjectCount ≤ waitCount then 0 else waitCount
      poolDecodeRect workObjectCount regionRects fuel (waitCount + 1)
        (submitted ++ regionRects[waitCount]?.toList)
    else some submitted

def tileCuts : Nat → Nat → Nat → List (Nat × Nat)
  | 0, _, _ => []
  | fuel + 1, start, stop =>
    if start <
      stop then (start, min stop (start + 64)) :: tileCuts fuel ((start + 64) % 2 ^ 16) stop else []

def tiles (r : Rectangle16) : List Rectangle16 :=
  (tileCuts r.right r.left r.right).flatMap fun x => (tileCuts r.bottom r.top r.bottom).map fun y =>
    ⟨x.1, y.1, x.2, y.2⟩

variable (height : Nat)

/-- `clamp`, at the smaller height of the context and the frame. -/
def clamp (rect : Rectangle16) : Rectangle16 :=
  { rect with top := min rect.top height, bottom := min rect.bottom height }

/-- What `pool_decode` submits: a rectangle that intersects a later one is left out. -/
def poolDecode : List Rectangle16 → List Rectangle16
  | [] => []
  | rect :: rest =>
    (if rest.any (rectanglesIntersects rect) then [] else tiles (clamp height rect)) ++ poolDecode rest

def poolDecodeDirect (regionRects : List Rectangle16) : List Rectangle16 :=
    regionRects.map (clamp height)

def Rectangle16.Has (rect : Rectangle16) (x y : Nat) : Prop :=
  rect.left ≤ x ∧ x < rect.right ∧ rect.top ≤ y ∧ y < rect.bottom

def Handed (rects : List Rectangle16) (x y : Nat) : Prop := ∃ rect ∈ rects, rect.Has x y

variable {count fuel n x y : Nat} {rects rest out : List Rectangle16} {rect other : Rectangle16}

theorem poolDecodeRect_fits (fits : rects.length ≤ count) (more : rects.length < n + fuel) :
    poolDecodeRect count rects fuel n (rects.take n) = if fuel = 0 then none else some rects := by
  induction fuel generalizing n with
  | zero => rfl
  | succ fuel ih =>
    unfold poolDecodeRect
    split
    · next left =>
      -- there is an object for every rectangle, so the counter is never set back
      have later : ¬count ≤ n := by omega
      have turns : fuel ≠ 0 := by omega
      simp only [later, if_false, ← take_add_one]
      rw [ih (by omega), if_neg turns, if_neg (Nat.succ_ne_zero fuel)]
    · rw [take_of_length_le (by omega)]
      rfl

/-- With fewer objects than rectangles the counter never gets to the end. -/
theorem poolDecodeRect_restarts (less : count + 1 < rects.length) (le : n ≤ count + 1) :
    poolDecodeRect (count + 1) rects fuel n out = none := by
  induction fuel generalizing n out with
  | zero => rfl
  | succ fuel ih =>
    unfold poolDecodeRect
    rw [if_pos (by omega)]
    apply ih
    split <;> omega

/-- Each rectangle is submitted once just when there are enough work objects. -/
theorem pool_decode_rect_submits_iff (count : Nat) (rects : List Rectangle16) :
    (∃ fuel out, poolDecodeRect (count + 1) rects fuel 0 [] = some out ∧ out.Perm rects) ↔
    rects.length ≤ count + 1 := by
  constructor
  · rintro ⟨fuel, out, ends, -⟩
    by_contra less
    rw [poolDecodeRect_restarts (by omega) (Nat.zero_le _)] at ends
    cases ends
  · intro fits
    refine ⟨rects.length + 1, rects, ?_, Perm.refl _⟩
    rw [← take_zero (l := rects), poolDecodeRect_fits fits (by omega)]
    rfl

/-- With one work object and two rectangles the loop never ends. -/
theorem pool_decode_rect_not_ending :
    ¬∃ fuel out, poolDecodeRect 1 [⟨0, 0, 16, 16⟩, ⟨16, 0, 32, 16⟩] fuel 0 [] = some out := by
  rintro ⟨fuel, out, ends⟩
  rw [poolDecodeRect_restarts (by decide) (Nat.zero_le _)] at ends
  cases ends

/-! ## `pool_decode` -/

theorem handed_append : Handed (rects ++ rest) x y ↔ Handed rects x y ∨ Handed rest x y := by
  simp only [Handed, mem_append, or_and_right, exists_or]

theorem handed_cons : Handed (rect :: rest) x y ↔ rect.Has x y ∨ Handed rest x y := by
  simp [Handed]

theorem tileCuts_cover {stop : Nat} (low : stop ≤ 2 ^ 15) (enough : stop ≤ n + fuel) :
    (∃ cut ∈ tileCuts fuel n stop, cut.1 ≤ x ∧ x < cut.2) ↔ n ≤ x ∧ x < stop := by
  induction fuel generalizing n with
  | zero =>
    simp only [tileCuts, not_mem_nil, false_and, exists_false, false_iff]
    omega
  | succ fuel ih =>
    unfold tileCuts
    split
    · rw [Nat.mod_eq_of_lt (by omega)]
      simp only [mem_cons, or_and_right, exists_or, exists_eq_left,
        ih (show stop ≤ n + 64 + fuel by omega)]
      omega
    · simp only [not_mem_nil, false_and, exists_false, false_iff]
      omega

theorem handed_tiles (low : rect.right ≤ 2 ^ 15 ∧ rect.bottom ≤ 2 ^ 15) :
    Handed (tiles rect) x y ↔ rect.Has x y := by
  have across := @tileCuts_cover rect.right rect.left x _ low.1 (Nat.le_add_left _ _)
  have down := @tileCuts_cover rect.bottom rect.top y _ low.2 (Nat.le_add_left _ _)
  simp only [Handed, tiles, mem_flatMap, mem_map]
  constructor
  · rintro ⟨_, ⟨column, inside, row, inside', rfl⟩, left, right, top, bottom⟩
    have has := across.mp ⟨column, inside, left, right⟩
    have has' := down.mp ⟨row, inside', top, bottom⟩
    exact ⟨has.1, has.2, has'.1, has'.2⟩
  · rintro ⟨left, right, top, bottom⟩
    obtain ⟨column, inside, left, right⟩ := across.mpr ⟨left, right⟩
    obtain ⟨row, inside', top, bottom⟩ := down.mpr ⟨top, bottom⟩
    exact ⟨_, ⟨column, inside, row, inside', rfl⟩, left, right, top, bottom⟩

theorem handed_poolDecode_cons (low : rect.right ≤ 2 ^ 15 ∧ rect.bottom ≤ 2 ^ 15) :
    Handed (poolDecode height (rect :: rest)) x y ↔
      (¬rest.any (rectanglesIntersects rect) ∧ (clamp height rect).Has x y) ∨
      Handed (poolDecode height rest) x y := by
  rw [poolDecode, handed_append]
  split
  · next later => simp [later, Handed]
  · next none =>
    have low' := And.intro low.1 (le_trans (min_le_left rect.bottom height) low.2)
    rw [@handed_tiles _ _ (clamp height rect) low', and_iff_right none]

/-- Two rectangles with a common pixel intersect. -/
theorem not_direct_of_alone (alone : ¬rest.any (rectanglesIntersects rect))
    (here : (clamp height rect).Has x y) :
    ¬Handed (poolDecodeDirect height rest) x y := by
  rintro ⟨_, mem, has⟩
  obtain ⟨other, after, rfl⟩ := mem_map.mp mem
  refine alone (any_eq_true.mpr ⟨other, after, ?_⟩)
  simp only [Has, clamp] at here has
  simp only [rectanglesIntersects, rectanglesIntersection, Option.isSome_ite]
  omega

/-- A pixel of a later rectangle, too, is not handed over for an earlier one. -/
theorem handed_poolDecode_later (low : rect.right ≤ 2 ^ 15 ∧ rect.bottom ≤ 2 ^ 15)
    (later : Handed (poolDecodeDirect height rest) x y) :
    Handed (poolDecode height (rect :: rest)) x y ↔ Handed (poolDecode height rest) x y := by
  rw [handed_poolDecode_cons height low, or_iff_right]
  exact fun alone => not_direct_of_alone height alone.1 alone.2 later

theorem handed_direct (low : ∀ rect ∈ rects, rect.right ≤ 2 ^ 15 ∧ rect.bottom ≤ 2 ^ 15)
    (handed : Handed (poolDecode height rects) x y) : Handed (poolDecodeDirect height rects) x y := by
  induction rects with
  | nil => exact handed
  | cons rect rest ih =>
    obtain ⟨here, rest'⟩ := forall_mem_cons.mp low
    exact handed_cons.mpr (((handed_poolDecode_cons height here).mp handed).imp And.right (ih rest'))

def LaterCover : List Rectangle16 → Prop
  | [] => True
  | rect :: rest => (rest.any (rectanglesIntersects rect) →
      ∀ x y, (clamp height rect).Has x y → Handed (poolDecodeDirect height rest) x y) ∧ LaterCover rest

/-- A rectangle that meets a later one is skipped, so the later ones have to cover it. -/
theorem pool_decode_same_pixels_iff (rects : List Rectangle16)
    (low : ∀ rect ∈ rects, rect.right ≤ 2 ^ 15 ∧ rect.bottom ≤ 2 ^ 15) :
    (∀ x y, Handed (poolDecode height rects) x y ↔ Handed (poolDecodeDirect height rects) x y) ↔
      LaterCover height rects := by
  induction rects with
  | nil => exact iff_of_true (fun _ _ => Iff.rfl) trivial
  | cons rect rest ih =>
    obtain ⟨here, rest'⟩ := forall_mem_cons.mp low
    rw [LaterCover, ← ih rest']
    constructor
    · intro same
      refine ⟨fun meets x y has => ?_, fun x y => ⟨handed_direct height rest', fun later => ?_⟩⟩
      · -- the rectangle is skipped, so later ones have its pixel
        have handed := (same x y).mpr (handed_cons.mpr (Or.inl has))
        rw [handed_poolDecode_cons height here] at handed
        exact handed_direct height rest' (handed.resolve_left fun alone => alone.1 meets)
      · exact (handed_poolDecode_later height here later).mp
          ((same x y).mpr (handed_cons.mpr (Or.inr later)))
    · rintro ⟨cover, same⟩ x y
      refine ⟨handed_direct height low, fun handed => ?_⟩
      rw [handed_poolDecode_cons height here, same]
      obtain has | later := handed_cons.mp handed
      · by_cases meets : rest.any (rectanglesIntersects rect)
        · exact Or.inr (cover meets x y has)
        · exact Or.inl ⟨meets, has⟩
      · exact Or.inr later

/-- Two rectangles that overlap, the first one inside of the second one. -/
theorem pool_decode_same_pixels_single :
    let rects : List Rectangle16 := [⟨10, 10, 50, 80⟩, ⟨0, 0, 100, 64⟩]
    LaterCover 64 rects ∧ ∀ x y, Handed (poolDecode 64 rects) x y ↔
      Handed (poolDecodeDirect 64 rects) x y := by
  have cover : LaterCover 64 [⟨10, 10, 50, 80⟩, ⟨0, 0, 100, 64⟩] := by
    refine ⟨fun _ x y has => ⟨⟨0, 0, 100, 64⟩, by decide, ?_⟩, fun later => (by cases later), trivial⟩
    have inside : 10 ≤ x ∧ x < 50 ∧ 10 ≤ y ∧ y < 64 := has
    simp only [Rectangle16.Has]
    omega
  exact ⟨cover, (pool_decode_same_pixels_iff 64 _ (by decide)).mpr cover⟩

/-- The pixel in the corner of the first one is lost. -/
theorem pool_decode_loses_pixel : let rects : List Rectangle16 := [⟨0, 0, 2, 1⟩, ⟨1, 0, 3, 1⟩]
    Handed (poolDecodeDirect 64 rects) 0 0 ∧ ¬Handed (poolDecode 64 rects) 0 0 := by
  refine ⟨⟨⟨0, 0, 2, 1⟩, mem_cons_self, by simp [Has]⟩, ?_⟩
  rintro ⟨_, mem, left, -⟩
  rw [show poolDecode 64 [⟨0, 0, 2, 1⟩, ⟨1, 0, 3, 1⟩] = [⟨1, 0, 3, 1⟩] by decide, mem_singleton] at mem
  rw [mem] at left
  cases left

/-! ## The threads -/

/-- No pixel is written by both work objects. -/
def Apart (a b : Rectangle16) : Prop := ∀ x y, a.Has x y → ¬b.Has x y

theorem tileCuts_apart {stop : Nat} (low : stop ≤ 2 ^ 15) :
    (∀ cut ∈ tileCuts fuel n stop, n ≤ cut.1) ∧ (tileCuts fuel n stop).Pairwise fun a b =>
    a.2 ≤ b.1 := by
  induction fuel generalizing n with
  | zero => simp [tileCuts]
  | succ fuel ih =>
    unfold tileCuts
    split
    · rw [Nat.mod_eq_of_lt (by omega), forall_mem_cons, pairwise_cons]
      have later := @ih (n + 64)
      exact ⟨⟨le_rfl, fun cut mem => le_self_add.trans (later.1 cut mem)⟩,
        fun cut mem => (min_le_right _ _).trans (later.1 cut mem), later.2⟩
    · simp

theorem tiles_apart (low : rect.right ≤ 2 ^ 15 ∧ rect.bottom ≤ 2 ^ 15) :
    (tiles rect).Pairwise Apart := by
  rw [tiles, pairwise_flatMap]
  constructor
  · intro column _
    refine pairwise_map.mpr ((tileCuts_apart low.2).2.imp fun above x y has has' => ?_)
    exact absurd (has.2.2.2.trans_le (above.trans has'.2.2.1)) (lt_irrefl y)
  · refine (tileCuts_apart low.1).2.imp fun before a mem b mem' x y has has' => ?_
    obtain ⟨_, _, rfl⟩ := mem_map.mp mem
    obtain ⟨_, _, rfl⟩ := mem_map.mp mem'
    exact absurd (has.2.1.trans_le (before.trans has'.1)) (lt_irrefl x)

/-- Whatever the rectangles are and however they overlap, no two work objects that run at the same
time write a pixel. -/
theorem pool_decode_no_race (low : ∀ rect ∈ rects, rect.right ≤ 2 ^ 15 ∧ rect.bottom ≤ 2 ^ 15) :
    (poolDecode height rects).Pairwise Apart := by
  induction rects with
  | nil => exact .nil
  | cons rect rest ih =>
    obtain ⟨here, later⟩ := forall_mem_cons.mp low
    have low' : (clamp height rect).right ≤ 2 ^ 15 ∧ (clamp height rect).bottom ≤ 2 ^ 15 :=
      ⟨here.1, (min_le_left rect.bottom height).trans here.2⟩
    rw [poolDecode]
    split
    · exact ih later
    · next alone =>
      refine pairwise_append.mpr ⟨tiles_apart low', ih later, fun a mem b mem' x y has has' => ?_⟩
      exact not_direct_of_alone height alone ((handed_tiles low').mp ⟨a, mem, has⟩)
        (handed_direct height later ⟨b, mem', has'⟩)

/-- Two rectangles that overlap are not written at the same time. -/
theorem pool_decode_no_race_overlap :
    (poolDecode 64 [⟨0, 0, 100, 64⟩, ⟨40, 0, 200, 90⟩]).Pairwise Apart :=
  pool_decode_no_race 64 (by decide)

end KvmServer.Codec
