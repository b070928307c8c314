import KvmServer.Cache.Glyph
import KvmServer.Lib.Loop

/-! # The visible part of a glyph -/

namespace KvmServer.Cache
open Lib

def GlyphArea.Covers (area : GlyphArea) (px py : Int) : Prop :=
  (area.x ≤ px ∧ px < area.x + area.width) ∧ area.y ≤ py ∧ py < area.y + area.height

def GlyphArea.Meets (a b : GlyphArea) : Prop := ∃ px py, a.Covers px py ∧ b.Covers px py

def GlyphArea.EndsIn (a b : GlyphArea) : Prop :=
    a.x + a.width ≤ b.x + b.width ∧ a.y + a.height ≤ b.y + b.height

def GlyphArea.inter (a b : GlyphArea) : GlyphArea where
  x := max a.x b.x
  y := max a.y b.y
  width := min (a.x + a.width) (b.x + b.width) - max a.x b.x
  height := min (a.y + a.height) (b.y + b.height) - max a.y b.y

variable (text : GlyphText) (bound : GlyphArea) (glyph : RdpGlyph) (pen : GlyphPen)

def RdpGlyph.area : GlyphArea := ⟨glyph.x + pen.x, glyph.y + pen.y, glyph.cx.toNat, glyph.cy.toNat⟩

def GlyphText.clippedDraw : GlyphDraw :=
  let part := (glyph.area pen).inter bound
  ⟨glyph, part.x, part.y, part.width, part.height, part.x - (glyph.x + pen.x),
    part.y - (glyph.y + pen.y),
    text.fOpRedundant⟩

def GlyphText.advance (drawn : Nat) : GlyphPen where
  x := if text.flAccel &&& SO_CHAR_INC_EQUAL_BM_BASE ≠ 0 then pen.x + glyph.cx.toNat else pen.x
  y := pen.y
  drawn := drawn

/-- The glyph is drawn inside of the bound: with one call of `Draw` if a pixel is visible, and with
none otherwise. -/
def ClipsGlyph (cache : GlyphCache) (idx : Nat) : Prop :=
  ∀ cbs,
    ((glyph.area pen).Meets bound → updateProcessGlyph cbs text bound cache idx pen =
      .ok (if cbs.draw pen.drawn (text.clippedDraw bound glyph pen) then
        some (text.advance glyph pen (pen.drawn + 1)) else none)) ∧
    (¬(glyph.area pen).Meets bound →
      updateProcessGlyph cbs text bound cache idx pen = .ok (some (text.advance glyph pen pen.drawn)))

/-- Along one axis: a part is drawn only if the end of the glyph is inside. -/
theorem clipGlyph_spec (x w bx bw : Int) : ∃ width,
    clipGlyph x w bx bw = (max x bx, width, max x bx - x) ∧
      (max x bx ≤ bx + bw ∧ width > 0 ↔ max x bx < min (x + w) (bx + bw) ∧ x + w ≤ bx + bw) ∧
      (x + w ≤ bx + bw → width = min (x + w) (bx + bw) - max x bx) := by
  unfold clipGlyph
  by_cases pre : x < bx
  · simp only [pre, if_true]
    refine ⟨_, by rw [Int.max_eq_right (by omega)], ?_, ?_⟩
    all_goals split <;> omega
  · simp only [pre, if_false]
    refine ⟨_, by rw [Int.max_eq_left (by omega), Int.sub_self], ?_, ?_⟩
    all_goals split <;> omega

theorem GlyphArea.meets_iff (a b : GlyphArea) : a.Meets b ↔
    max a.x b.x < min (a.x + a.width) (b.x + b.width) ∧
    max a.y b.y < min (a.y + a.height) (b.y + b.height) := by
  constructor
  · rintro ⟨_, _, ⟨⟨_, _⟩, _, _⟩, ⟨_, _⟩, _, _⟩
    omega
  · rintro ⟨_, _⟩
    refine ⟨max a.x b.x, max a.y b.y, ⟨⟨?_, ?_⟩, ?_, ?_⟩, ⟨?_, ?_⟩, ?_, ?_⟩ <;> omega

variable {text bound glyph pen} {cache : GlyphCache} {idx : Nat}
  (present : glyphCacheGet cache text.cacheId idx = .ok (some glyph))
include present

/-- A glyph is drawn if a pixel is visible and it does not cross the right or the bottom edge. -/
theorem processGlyph_present (cbs : GlyphCallbacks) :
    ((glyph.area pen).Meets bound ∧ (glyph.area pen).EndsIn bound →
      updateProcessGlyph cbs text bound cache idx pen =
        .ok (if cbs.draw pen.drawn (text.clippedDraw bound glyph pen) then
          some (text.advance glyph pen (pen.drawn + 1)) else none)) ∧
    (¬((glyph.area pen).Meets bound ∧ (glyph.area pen).EndsIn bound) →
      updateProcessGlyph cbs text bound cache idx pen =
      .ok (some (text.advance glyph pen pen.drawn))) := by
  have cast (n : UInt16) : castSigned 32 n.toNat = .ok (n.toNat : Int) := by
    have := n.toNat_lt
    exact if_pos ⟨by omega, by omega⟩
  obtain ⟨dw, across, drawnAcross, dwEq⟩ :=
    clipGlyph_spec (glyph.x + pen.x) glyph.cx.toNat bound.x bound.width
  obtain ⟨dh, down, drawnDown, dhEq⟩ :=
    clipGlyph_spec (glyph.y + pen.y) glyph.cy.toNat bound.y bound.height
  rw [GlyphArea.meets_iff, updateProcessGlyph, present, ok_bind]
  dsimp only [RdpGlyph.area, GlyphArea.EndsIn]
  rw [cast, ok_bind, cast, ok_bind, across, down]
  constructor
  · rintro ⟨⟨meetsX, meetsY⟩, endsX, endsY⟩
    obtain ⟨leX, posX⟩ := drawnAcross.mpr ⟨meetsX, endsX⟩
    obtain ⟨leY, posY⟩ := drawnDown.mpr ⟨meetsY, endsY⟩
    have draw : text.clippedDraw bound glyph pen =
      ⟨glyph, max (glyph.x + pen.x) bound.x, max (glyph.y + pen.y) bound.y,
        dw, dh, max (glyph.x + pen.x) bound.x - (glyph.x + pen.x),
          max (glyph.y + pen.y) bound.y - (glyph.y + pen.y),
        text.fOpRedundant⟩ := by
      rw [dwEq endsX, dhEq endsY]
      rfl
    rw [← draw]
    cases cbs.draw pen.drawn (text.clippedDraw bound glyph pen) with
    | true | false => simp [leX, leY, posX, posY, GlyphText.advance]
  · intro hidden
    have invisible : ¬(max (glyph.x + pen.x) bound.x ≤ bound.x + bound.width ∧
        max (glyph.y + pen.y) bound.y ≤ bound.y + bound.height ∧ dh > 0 ∧ dw > 0) := by
      rintro ⟨leX, leY, posY, posX⟩
      obtain ⟨meetsX, endsX⟩ := drawnAcross.mp ⟨leX, posX⟩
      obtain ⟨meetsY, endsY⟩ := drawnDown.mp ⟨leY, posY⟩
      exact hidden ⟨⟨meetsX, meetsY⟩, endsX, endsY⟩
    simp only [invisible, false_and, if_false, GlyphText.advance]

theorem not_clipsGlyph (meets : (glyph.area pen).Meets bound)
    (crosses : ¬(glyph.area pen).EndsIn bound) :
    ¬ClipsGlyph text bound glyph pen cache idx := by
  intro clips
  -- a client that refuses to draw sees that it is not asked
  have rejected :=
    (clips ⟨fun _ _ => true, fun _ _ _ _ => true, fun _ => true, fun _ _ => false, fun _ _ _ => true⟩).1 meets
  rw [(processGlyph_present present _).2 fun ⟨_, ends⟩ => crosses ends] at rejected
  cases rejected

omit present

/-- A visible glyph that crosses the right or the bottom edge of the bound is not drawn; every
other glyph is drawn as it should be. -/
theorem glyph_clipped_iff (text : GlyphText) (bound : GlyphArea) (glyph : RdpGlyph) (pen : GlyphPen)
    (cache : GlyphCache) (idx : Nat)
    (present : glyphCacheGet cache text.cacheId idx = .ok (some glyph)) :
    ClipsGlyph text bound glyph pen cache idx ↔
    ((glyph.area pen).Meets bound → (glyph.area pen).EndsIn bound) := by
  constructor
  · intro clips meets
    by_contra crosses
    exact not_clipsGlyph present meets crosses clips
  · intro ends cbs
    obtain ⟨drawn, hidden⟩ := @processGlyph_present text bound glyph pen _ _ present cbs
    exact ⟨fun meets => drawn ⟨meets, ends meets⟩, fun apart => hidden fun ⟨meets, _⟩ => apart meets⟩

/-- A glyph of 4 pixels inside of 10. -/
theorem glyph_clipped_inside : ∃ text cache,
    ClipsGlyph text ⟨0, 0, 10, 10⟩ ⟨0, 0, 4, 4⟩ ⟨0, 0, 0⟩ cache 0 :=
  ⟨⟨[0], 1, 0, 0, 0, 0, 0, 0, 0, ⟨0, 0, 10, 10⟩, ⟨0, 0, 10, 10⟩, 0⟩,
    ⟨fun _ => 1, fun _ _ => some ⟨0, 0, 4, 4⟩, fun _ => none⟩,
    (glyph_clipped_iff _ _ _ _ _ 0 rfl).mpr fun _ => ⟨by decide, by decide⟩⟩

/-- The same glyph over the right edge: two of its columns are visible, and it is not drawn. -/
theorem glyph_not_clipped : ∃ text cache,
    ¬ClipsGlyph text ⟨0, 0, 10, 10⟩ ⟨0, 0, 4, 4⟩ ⟨8, 0, 0⟩ cache 0 :=
  ⟨⟨[0], 1, 0, 0, 0, 0, 0, 8, 0, ⟨0, 0, 10, 10⟩, ⟨0, 0, 10, 10⟩, 0⟩,
    ⟨fun _ => 1, fun _ _ => some ⟨0, 0, 4, 4⟩, fun _ => none⟩,
    not_clipsGlyph rfl ((GlyphArea.meets_iff _ _).mpr ⟨by decide, by decide⟩) fun ends =>
      absurd ends.1 (by decide)⟩

end KvmServer.Cache
