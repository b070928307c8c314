import KvmServer.Codec.RegionBounds
import KvmServer.Codec.RfxDecoder

/-! # What a RemoteFX message may draw

The assertions of `rfx_process_message` compare the position plus a coordinate of the wire with
`UINT16_MAX`.  Where they hold, all casts go through, and what is drawn has been clipped to the
destination. -/

namespace KvmServer.Codec
open Lib Winpr List
variable {α : Type} {left top dstWidth dstHeight : Nat}

def Positioned (left top : Nat) (x y : UInt16) : Prop :=
    left + x.toNat ≤ UINT16_MAX ∧ top + y.toNat ≤ UINT16_MAX

structure RfxDecoderMessage.Positioned (left top : Nat) (message : RfxDecoderMessage α) : Prop where
  rects : ∀ rect ∈ message.rects, Codec.Positioned left top rect.x rect.y
  tiles : ∀ tile ∈ message.tiles, Codec.Positioned left top tile.x tile.y

structure RfxCopy.Inside (dstWidth dstHeight : Nat) (copy : RfxCopy α) : Prop where
  right : copy.nXDst + copy.nWidth ≤ dstWidth
  bottom : copy.nYDst + copy.nHeight ≤ dstHeight
  sourceRight : copy.nXSrc + copy.nWidth ≤ 64
  sourceBottom : copy.nYSrc + copy.nHeight ≤ 64

/-! ## What is drawn when nothing fails -/

def clippedRect (left top dstWidth dstHeight : Nat) (rect : RfxRect) : Rectangle16 :=
  let clipLeft := min (left + rect.x.toNat) dstWidth
  let clipTop := min (top + rect.y.toNat) dstHeight
  ⟨clipLeft, clipTop, min (clipLeft + rect.width.toNat) dstWidth,
    min (clipTop + rect.height.toNat) dstHeight⟩

def clippingRegion (left top dstWidth dstHeight : Nat) (rects : List RfxRect) : Region16 :=
  (rects.map (clippedRect left top dstWidth dstHeight)).foldl region16UnionRect region16Init

def tileRect (left top : Nat) (tile : RfxDecodedTile α) : Rectangle16 :=
  ⟨left + tile.x.toNat, top + tile.y.toNat, (left + tile.x.toNat + 64) % 2 ^ 16,
    (top + tile.y.toNat + 64) % 2 ^ 16⟩

def tileCopies (clippingRects : Region16) (left top : Nat) (tile : RfxDecodedTile α) :
    List (Rectangle16 × RfxCopy α) :=
  (region16IntersectRect clippingRects (tileRect left top tile)).rects.map fun cur =>
    (cur, rfxCopy (tileRect left top tile) cur tile)

theorem rfxClippingRect_ok_iff (wide : dstWidth ≤ UINT16_MAX) (high : dstHeight ≤ UINT16_MAX)
    {rect : RfxRect}
    {clippingRect : Rectangle16} : rfxClippingRect left top dstWidth dstHeight rect = .ok clippingRect ↔
      Positioned left top rect.x rect.y ∧
      clippedRect left top dstWidth dstHeight rect = clippingRect := by
  have width := rect.width.toNat_lt
  have height := rect.height.toNat_lt
  simp only [rfxClippingRect, winprAssert_bind_ok_iff, assertingCast_bind_ok_iff]
  constructor
  · rintro ⟨across, down, -, -, -, -, -, -, res⟩
    cases res
    exact ⟨⟨across, down⟩, rfl⟩
  rintro ⟨⟨across, down⟩, rfl⟩
  refine ⟨across, down, ?_, ?_, ?_, ?_, ?_, ?_, rfl⟩ <;> unfold UINT16_MAX at * <;> omega

variable {clippingRects : Region16} {tile : RfxDecodedTile α} {copies : List (Rectangle16 × RfxCopy α)}

theorem rfxClippingRects_ok_iff (wide : dstWidth ≤ UINT16_MAX) (high : dstHeight ≤ UINT16_MAX)
    {rects : List RfxRect} :
    rfxClippingRects left top dstWidth dstHeight rects = .ok clippingRects ↔
    (∀ rect ∈ rects, Positioned left top rect.x rect.y) ∧
        clippingRegion left top dstWidth dstHeight rects = clippingRects := by
  unfold rfxClippingRects clippingRegion
  generalize region16Init = rgn
  induction rects generalizing rgn with
  | nil =>
    constructor
    · intro res
      cases res
      exact ⟨fun _ mem => (not_mem_nil mem).elim, rfl⟩
    rintro ⟨-, rfl⟩
    rfl
  | cons rect rects ih =>
    rw [foldlM_cons, map_cons, foldl_cons, forall_mem_cons, and_assoc, ← ih, bind_ok_iff]
    constructor
    · rintro ⟨_, step, rest⟩
      obtain ⟨_, clip, joined⟩ := bind_ok_iff.mp step
      obtain ⟨positioned, rfl⟩ := (rfxClippingRect_ok_iff wide high).mp clip
      cases joined
      exact ⟨positioned, rest⟩
    rintro ⟨positioned, rest⟩
    refine ⟨_, bind_ok_iff.mpr ⟨_, (rfxClippingRect_ok_iff wide high).mpr ⟨positioned, rfl⟩, rfl⟩, rest⟩

theorem rfxTileCopies_ok_iff : rfxTileCopies clippingRects left top tile = .ok copies ↔
      Positioned left top tile.x tile.y ∧ tileCopies clippingRects left top tile = copies := by
  have update : ∀ updateRect, rfxUpdateRect left top tile = .ok updateRect ↔
      Positioned left top tile.x tile.y ∧ tileRect left top tile = updateRect := by
    intro updateRect
    simp only [rfxUpdateRect, winprAssert_bind_ok_iff, ← and_assoc]
    apply and_congr_right
    rintro ⟨across, down⟩
    unfold UINT16_MAX at across down
    have atLeft : (left + tile.x.toNat) % 2 ^ 16 = left + tile.x.toNat := Nat.mod_eq_of_lt (by omega)
    have atTop : (top + tile.y.toNat) % 2 ^ 16 = top + tile.y.toNat := Nat.mod_eq_of_lt (by omega)
    rw [atLeft, atTop]
    exact ⟨Except.ok.inj, congrArg Except.ok⟩
  rw [rfxTileCopies, bind_ok_iff]
  constructor
  · rintro ⟨updateRect, updated, res⟩
    obtain ⟨positioned, rfl⟩ := (update _).mp updated
    cases res
    exact ⟨positioned, rfl⟩
  rintro ⟨positioned, rfl⟩
  exact ⟨_, (update _).mpr ⟨positioned, rfl⟩, rfl⟩

theorem rfxCopies_ok_iff {tiles : List (RfxDecodedTile α)} :
    rfxCopies clippingRects left top tiles = .ok copies ↔
    (∀ tile ∈ tiles, Positioned left top tile.x tile.y) ∧
        tiles.flatMap (tileCopies clippingRects left top) = copies := by
  induction tiles generalizing copies with
  | nil =>
    constructor
    · intro res
      cases res
      exact ⟨fun _ mem => (not_mem_nil mem).elim, rfl⟩
    rintro ⟨-, rfl⟩
    rfl
  | cons tile tiles ih =>
    rw [rfxCopies, bind_ok_iff, forall_mem_cons, flatMap_cons]
    simp only [bind_ok_iff, rfxTileCopies_ok_iff, ih]
    constructor
    · rintro ⟨_, ⟨positioned, rfl⟩, _, ⟨all, rfl⟩, res⟩
      cases res
      exact ⟨⟨positioned, all⟩, rfl⟩
    rintro ⟨⟨positioned, all⟩, rfl⟩
    exact ⟨_, ⟨positioned, rfl⟩, _, ⟨all, rfl⟩, rfl⟩

/-! ## Where it is drawn -/

theorem foldl_union_within {rects : List Rectangle16} {rgn : Region16}
    (inside : rgn.Within dstWidth dstHeight)
    (all : ∀ rect ∈ rects, rect.Within dstWidth dstHeight) :
    (rects.foldl region16UnionRect rgn).Within dstWidth dstHeight := by
  induction rects generalizing rgn with
  | nil => exact inside
  | cons rect rects ih =>
    obtain ⟨here, later⟩ := forall_mem_cons.mp all
    exact ih (region16UnionRect_within inside here) later

theorem clippingRegion_within (left top dstWidth dstHeight : Nat) (rects : List RfxRect) :
    (clippingRegion left top dstWidth dstHeight rects).Within dstWidth dstHeight := by
  apply foldl_union_within region16Init_within
  intro clip mem
  obtain ⟨_, -, rfl⟩ := mem_map.mp mem
  exact ⟨min_le_right _ _, min_le_right _ _⟩

theorem rfxCopy_inside {cur : Rectangle16} (piece : Rectangle16.PieceOf (tileRect left top tile) cur)
    (within : cur.Within dstWidth dstHeight) :
    (rfxCopy (tileRect left top tile) cur tile).Inside dstWidth dstHeight := by
  obtain ⟨_, _, fromLeft, fromTop, toRight, toBot⟩ := piece
  obtain ⟨_, _⟩ := within
  dsimp only [tileRect] at fromLeft fromTop toRight toBot
  constructor <;> dsimp only [rfxCopy, tileRect] <;> omega

theorem tileCopies_inside (within : clippingRects.Within dstWidth dstHeight) (tile : RfxDecodedTile α) :
    ∀ copy ∈ tileCopies clippingRects left top tile, copy.2.Inside dstWidth dstHeight := by
  intro copy mem
  obtain ⟨cur, piece, rfl⟩ := mem_map.mp mem
  obtain ⟨lies, inside⟩ := region16IntersectRect_piece within (tileRect left top tile) cur piece
  exact rfxCopy_inside lies inside

theorem rfxProcessMessage_parsed {decodeRgb : RlgrMode → RfxPlanes → Nat → Nat → α}
    {context ctx' : RfxContext α}
    {data : List UInt8} (some : data ≠ []) (parse : rfxParse decodeRgb context data = (ctx', .parsed))
    (wide : dstWidth ≤ UINT16_MAX) (high : dstHeight ≤ UINT16_MAX) (invalidRegion : Option Region16)
    (res : RfxResult α) :
    rfxProcessMessage decodeRgb context data left top dstWidth dstHeight invalidRegion = .ok res ↔
      ctx'.currentMessage.Positioned left top ∧
        res =
          let copies := ctx'.currentMessage.tiles.flatMap
            (tileCopies (clippingRegion left top dstWidth dstHeight ctx'.currentMessage.rects) left top)
          { context := ctx'
            copies := copies.map Prod.snd
            invalidRegion :=
              invalidRegion.map fun rgn => (copies.map Prod.fst).foldl region16UnionRect rgn
            ok := true } := by
  rw [rfxProcessMessage, if_neg some, parse]
  rw [winprAssert_bind_ok_iff, winprAssert_bind_ok_iff]
  simp only [bind_ok_iff, rfxClippingRects_ok_iff wide high, rfxCopies_ok_iff]
  constructor
  · rintro ⟨-, -, rgn, ⟨rects, rfl⟩, copies, ⟨tiles, rfl⟩, done⟩
    cases done
    exact ⟨⟨rects, tiles⟩, rfl⟩
  rintro ⟨⟨rects, tiles⟩, rfl⟩
  exact ⟨wide, high, _, ⟨rects, rfl⟩, _, ⟨tiles, rfl⟩, rfl⟩

/-- No assertion fails and nothing is written outside exactly if the rectangles and the tiles can
be positioned, or nothing is drawn. -/
theorem rfx_message_safe_iff (decodeRgb : RlgrMode → RfxPlanes → Nat → Nat → α) (context : RfxContext α)
    (data : List UInt8) (left top dstWidth dstHeight : UInt16) (invalidRegion : Option Region16) :
    (∃ result,
      rfxProcessMessage decodeRgb context data left.toNat top.toNat dstWidth.toNat dstHeight.toNat
          invalidRegion = .ok result ∧
        ∀ copy ∈ result.copies, copy.Inside dstWidth.toNat dstHeight.toNat) ↔
      (data ≠ [] → (rfxParse decodeRgb context data).2 = .parsed →
        (rfxParse decodeRgb context data).1.currentMessage.Positioned left.toNat top.toNat) := by
  have wide : dstWidth.toNat ≤ UINT16_MAX := Nat.le_of_lt_succ dstWidth.toNat_lt
  have high : dstHeight.toNat ≤ UINT16_MAX := Nat.le_of_lt_succ dstHeight.toNat_lt
  by_cases empty : data = []
  · refine iff_of_true ⟨⟨context, [], invalidRegion, false⟩, ?_, List.forall_mem_nil _⟩ fun some =>
      absurd empty some
    rw [rfxProcessMessage, if_pos empty]
    rfl
  · cases parsed : rfxParse decodeRgb context data with
    | mk context' blocks =>
      have stopped : blocks ≠ .parsed →
          rfxProcessMessage decodeRgb context data left.toNat top.toNat dstWidth.toNat
            dstHeight.toNat invalidRegion =
            .ok ⟨context', [], invalidRegion, false⟩ := by
        intro stops
        rw [rfxProcessMessage, if_neg empty, parsed]
        cases blocks with
        | parsed => exact absurd rfl stops
        | failed => rfl
        | refused => rfl
      by_cases done : blocks = .parsed
      · subst done
        simp only [rfxProcessMessage_parsed empty parsed wide high]
        constructor
        · rintro ⟨_, ⟨positioned, -⟩, -⟩ _ _
          exact positioned
        intro positioned
        refine ⟨_, ⟨positioned empty trivial, rfl⟩, ?_⟩
        intro copy member
        obtain ⟨⟨_, copy⟩, drawn, rfl⟩ := List.mem_map.mp member
        obtain ⟨tile, -, drawn⟩ := List.mem_flatMap.mp drawn
        exact tileCopies_inside (clippingRegion_within _ _ _ _ _) tile _ drawn
      · exact iff_of_true ⟨_, stopped done, List.forall_mem_nil _⟩ fun _ parsed => absurd parsed done

def farRectangle : List UInt8 :=
  [0xC0, 0xCC, 12, 0, 0, 0, 0xCA, 0xAC, 0xCC, 0xCA, 0x00, 0x01] ++
  [0xC3, 0xCC, 13, 0, 0, 0, 1, 0xFF, 0, 0x40, 0, 0x28, 0x28] ++
  [0xC1, 0xCC, 10, 0, 0, 0, 1, 1, 0x00, 0x01] ++
  [0xC2, 0xCC, 12, 0, 0, 0, 1, 0, 64, 0, 64, 0] ++
  [0xC4, 0xCC, 14, 0, 0, 0, 1, 0, 0, 0, 0, 0, 1, 0] ++
  [0xC6, 0xCC, 23, 0, 0, 0, 1, 0, 1, 1, 0, 0xFF, 0xFF, 0, 0, 1, 0, 1, 0, 0xC1, 0xCA, 1, 0]

/-- Drawn one pixel to the right, the message fails an assertion. -/
theorem rfx_message_not_safe :
    ¬∃ result,
    rfxProcessMessage (fun _ _ _ _ => ()) rfxContextNew farRectangle 1 0 64 64 none = .ok result ∧
      ∀ copy ∈ result.copies, copy.Inside 64 64 := by
  rintro ⟨result, drawn, -⟩
  have aborted :
      (rfxProcessMessage (fun _ _ _ _ => ()) rfxContextNew farRectangle 1 0 64 64 none).isOk = false := by
    decide +kernel
  rw [drawn] at aborted
  cases aborted

end KvmServer.Codec
