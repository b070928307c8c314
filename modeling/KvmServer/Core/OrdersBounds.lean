import KvmServer.Core.Orders
import KvmServer.Lib.Session

/-! # The arrays of primary orders stay in bounds

The number of rectangles or points comes in a field of its own, apart from the data, and stays for
later orders of the type.  Whatever comes of the two, no more elements count than the array has. -/

namespace KvmServer.Core
open Lib Winpr

def OrderRects.InBounds (order : OrderRects) : Prop :=
    order.rectangles.length = 45 ∧ order.numRectangles ≤ 45

def OrderPoints.InBounds (order : OrderPoints) : Prop := order.numPoints ≤ order.points.length

structure PrimaryOrders.InBounds (orders : PrimaryOrders) : Prop where
  multiDstblt : orders.multiDstblt.toOrderRects.InBounds
  multiPatblt : orders.multiPatblt.toOrderRects.InBounds
  multiScrblt : orders.multiScrblt.toOrderRects.InBounds
  multiOpaqueRect : orders.multiOpaqueRect.toOrderRects.InBounds
  multiDrawNineGrid : orders.multiDrawNineGrid.toOrderRects.InBounds
  polyline : orders.polyline.toOrderPoints.InBounds
  polygonSc : orders.polygonSc.toOrderPoints.InBounds
  polygonCb : orders.polygonCb.toOrderPoints.InBounds

theorem orderRects_zero_inBounds : OrderRects.InBounds {} := ⟨List.length_replicate, Nat.zero_le 45⟩

theorem primaryOrders_zero_inBounds : PrimaryOrders.InBounds {} where
  multiDstblt := orderRects_zero_inBounds
  multiPatblt := orderRects_zero_inBounds
  multiScrblt := orderRects_zero_inBounds
  multiOpaqueRect := orderRects_zero_inBounds
  multiDrawNineGrid := orderRects_zero_inBounds
  polyline := le_refl 0
  polygonSc := le_refl 0
  polygonCb := le_refl 0

/-! ## The readers of the arrays -/

variable (zeroBits : List UInt8) (info : OrderInfo)

theorem readDeltaRectsFrom_ensures (i : Nat) (prev : DeltaRect) (count : Nat) :
    Ensures (updateReadDeltaRectsFrom zeroBits i prev count) fun rects => rects.length = count := by
  induction count generalizing i prev with
  | zero => exact .pure rfl
  | succ count ih =>
    apply Ensures.skip
    intro rect
    apply (ih (i + 1) rect).bind
    intro rects len
    exact .pure (by rw [List.length_cons, len])

theorem readDeltaPointsFrom_ensures (i count : Nat) :
    Ensures (updateReadDeltaPointsFrom zeroBits i count) fun points => points.length = count := by
  induction count generalizing i with
  | zero => exact .pure rfl
  | succ count ih =>
    apply Ensures.skip
    intro _
    apply (ih (i + 1)).bind
    intro points len
    exact .pure (by rw [List.length_cons, len])

theorem copyMemory_length {α : Type} {memory pre : List α} (fits : pre.length ≤ memory.length) :
    (copyMemory memory pre).length = memory.length := by
  rw [copyMemory, List.length_append, List.length_drop]
  omega

theorem readDeltaRects_ensures {rects : List DeltaRect} (size : rects.length = 45) (num : Nat) :
    Ensures (updateReadDeltaRects rects num) fun rs => rs.length = 45 ∧ num ≤ 45 := by
  apply (orderRequire_ensures (num ≤ 45)).bind
  intro _ few
  apply Ensures.skip
  intro zeroBits
  apply (readDeltaRectsFrom_ensures zeroBits 0 {} num).bind
  intro rs len
  exact .pure ⟨by rw [copyMemory_length (by rw [len, size]; exact few), size], few⟩

theorem readDeltaPoints_ensures (number : Nat) :
    Ensures (updateReadDeltaPoints number) fun points => points.length = number :=
  .skip fun zeroBits => readDeltaPointsFrom_ensures zeroBits 0 number

theorem readOrderRects_ensures (dataField numRs : Nat) {ordered : OrderRects}
    (inBounds : ordered.InBounds) :
    Ensures (readOrderRects info dataField numRs ordered) OrderRects.InBounds := by
  apply Ensures.ite
  · intro _
    apply Ensures.skip
    intro _
    exact (readDeltaRects_ensures inBounds.1 numRs).bind fun rects bounded => .pure bounded
  intro _
  apply (orderRequire_ensures (numRs ≤ ordered.numRectangles)).bind
  intro _ fewer
  exact .pure ⟨inBounds.1, le_trans fewer inBounds.2⟩

theorem readOrderPoints_ensures (dataField numPoints : Nat) (xSt ySt : Int)
    {ordered : OrderPoints} (inBounds : ordered.InBounds) :
    Ensures (readOrderPoints info dataField numPoints xSt ySt ordered) OrderPoints.InBounds := by
  apply Ensures.ite
  · intro _
    iterate 3 (apply Ensures.skip; intro _)
    apply (readDeltaPoints_ensures numPoints).bind
    intro _ len
    exact .pure (le_of_eq len.symm)
  intro _
  apply (orderRequire_ensures (numPoints ≤ ordered.numPoints)).bind
  intro _ fewer
  exact .pure (le_trans fewer inBounds)

/-! ## The readers of the orders -/

theorem multiDstblt_ensures {ordered : MultiDstbltOrder} (inBounds : ordered.toOrderRects.InBounds) :
    Ensures (updateReadMultiDstbltOrder info ordered) fun ordered => ordered.toOrderRects.InBounds := by
  iterate 6 (apply Ensures.skip; intro _)
  exact (readOrderRects_ensures info 7 _ inBounds).bind fun rects bounded => .pure bounded

theorem multiScrblt_ensures {ordered : MultiScrbltOrder} (inBounds : ordered.toOrderRects.InBounds) :
    Ensures (updateReadMultiScrbltOrder info ordered) fun ordered => ordered.toOrderRects.InBounds := by
  iterate 8 (apply Ensures.skip; intro _)
  exact (readOrderRects_ensures info 9 _ inBounds).bind fun rects bounded => .pure bounded

theorem multiOpaqueRect_ensures {ordered : MultiOpaqueRectOrder}
    (inBounds : ordered.toOrderRects.InBounds) :
    Ensures (updateReadMultiOpaqueRectOrder info ordered) fun ordered =>
    ordered.toOrderRects.InBounds := by
  iterate 6 (apply Ensures.skip; intro _)
  exact (readOrderRects_ensures info 9 _ inBounds).bind fun rects bounded => .pure bounded

theorem multiDrawNineGrid_ensures {ordered : MultiDrawNineGridOrder}
    (inBounds : ordered.toOrderRects.InBounds) :
    Ensures (updateReadMultiDrawNineGridOrder info ordered) fun ordered =>
    ordered.toOrderRects.InBounds := by
  iterate 6 (apply Ensures.skip; intro _)
  exact (readOrderRects_ensures info 7 _ inBounds).bind fun rects bounded => .pure bounded

theorem multiPatblt_ensures {ordered : MultiPatbltOrder} (inBounds : ordered.toOrderRects.InBounds) :
    Ensures (updateReadMultiPatbltOrder info ordered) fun ordered => ordered.toOrderRects.InBounds := by
  iterate 9 (apply Ensures.skip; intro _)
  refine (readOrderField_ensures ?_ inBounds).bind fun rects bounded => ?_
  · apply Ensures.skip
    intro _
    exact (readDeltaRects_ensures inBounds.1 _).bind fun rects bounded => .pure bounded
  apply (orderRequire_ensures _).bind
  intro _ fewer
  exact .pure ⟨bounded.1, le_trans fewer bounded.2⟩

theorem polyline_ensures {ordered : PolylineOrder} (inBounds : ordered.toOrderPoints.InBounds) :
    Ensures (updateReadPolylineOrder info ordered) fun ordered => ordered.toOrderPoints.InBounds := by
  iterate 6 (apply Ensures.skip; intro _)
  exact (readOrderPoints_ensures info 7 _ _ _ inBounds).bind fun points bounded => .pure bounded

theorem polygonSc_ensures {ordered : PolygonScOrder} (inBounds : ordered.toOrderPoints.InBounds) :
    Ensures (updateReadPolygonScOrder info ordered) fun ordered => ordered.toOrderPoints.InBounds := by
  iterate 6 (apply Ensures.skip; intro _)
  exact (readOrderPoints_ensures info 7 _ _ _ inBounds).bind fun points bounded => .pure bounded

theorem polygonCb_ensures {ordered : PolygonCbOrder} (inBounds : ordered.toOrderPoints.InBounds) :
    Ensures (updateReadPolygonCbOrder info ordered) fun ordered => ordered.toOrderPoints.InBounds := by
  iterate 8 (apply Ensures.skip; intro _)
  refine (readOrderField_ensures ?_ inBounds).bind fun points bounded => ?_
  · iterate 3 (apply Ensures.skip; intro _)
    exact (readDeltaPoints_ensures _).bind fun points len => .pure (le_of_eq len.symm)
  apply (orderRequire_ensures _).bind
  intro _ fewer
  exact .pure (le_trans fewer bounded)

/-! ## Every run -/

variable {orders : PrimaryOrders}

theorem readOrderOfType_inBounds (inBounds : orders.InBounds) (type : PrimaryOrderType) :
    Ensures (readOrderOfType info orders type) PrimaryOrders.InBounds := by
  cases type with
  | multiDstblt =>
    exact (multiDstblt_ensures info inBounds.multiDstblt).bind fun _ bounded =>
      .pure { inBounds with multiDstblt := bounded }
  | multiPatblt =>
    exact (multiPatblt_ensures info inBounds.multiPatblt).bind fun _ bounded =>
      .pure { inBounds with multiPatblt := bounded }
  | multiScrblt =>
    exact (multiScrblt_ensures info inBounds.multiScrblt).bind fun _ bounded =>
      .pure { inBounds with multiScrblt := bounded }
  | multiOpaqueRect =>
    exact (multiOpaqueRect_ensures info inBounds.multiOpaqueRect).bind fun _ bounded =>
      .pure { inBounds with multiOpaqueRect := bounded }
  | multiDrawNineGrid =>
    exact (multiDrawNineGrid_ensures info inBounds.multiDrawNineGrid).bind fun _ bounded =>
      .pure { inBounds with multiDrawNineGrid := bounded }
  | polyline =>
    exact (polyline_ensures info inBounds.polyline).bind fun _ bounded =>
      .pure { inBounds with polyline := bounded }
  | polygonSc =>
    exact (polygonSc_ensures info inBounds.polygonSc).bind fun _ bounded =>
      .pure { inBounds with polygonSc := bounded }
  | polygonCb =>
    exact (polygonCb_ensures info inBounds.polygonCb).bind fun _ bounded =>
      .pure { inBounds with polygonCb := bounded }
  | _ => exact .skip fun _ => .pure { inBounds with }

theorem readPrimaryOrder_inBounds (inBounds : orders.InBounds) :
    Ensures (readPrimaryOrder info orders) PrimaryOrders.InBounds := by
  unfold readPrimaryOrder
  cases PrimaryOrderType.ofCode info.orderType with
  | none => exact .pure inBounds
  | some type => exact readOrderOfType_inBounds info inBounds type

theorem recvPrimaryOrder_inBounds (sets : OrderSettings) (cbs : OrderCallbacks) (flags : Nat)
    {primary : RdpPrimaryUpdate} (inBounds : primary.orders.InBounds) :
    Ensures (updateRecvPrimaryOrder sets cbs flags primary) fun primary => primary.orders.InBounds := by
  apply Ensures.skip
  intro ordType
  apply Ensures.skip
  intro _
  cases getPrimaryDrawingOrderFieldBytes ordType with
  | none => exact .throw _ _
  | some _ =>
    iterate 3 (apply Ensures.skip; intro _)
    apply (readPrimaryOrder_inBounds _ inBounds).bind
    intro orders bounded
    -- the callbacks only decide whether the order is processed
    iterate 3 (apply Ensures.skip; intro _)
    exact .pure bounded

/-- After primary orders on any bytes, all of them processed, no order counts more rectangles than
its array has or more points than were allocated for it. -/
theorem primary_orders_in_bounds (settings : OrderSettings) (calls : List OrderCall)
    (primary : RdpPrimaryUpdate)
    (processed : updateRecvPrimaryOrders settings {} calls = .ok primary) : primary.orders.InBounds := by
  have preserved :
      ∀ (pre : RdpPrimaryUpdate) (call : OrderCall) (after : RdpPrimaryUpdate), pre.orders.InBounds →
      Prod.fst <$> (updateRecvPrimaryOrder settings call.callbacks call.flags pre).run call.bytes =
        .ok after →
      after.orders.InBounds := by
    intro pre call after inBounds step
    cases run : (updateRecvPrimaryOrder settings call.callbacks call.flags pre).run call.bytes with
    | error _ =>
      rw [run] at step
      cases step
    | ok _ =>
      rw [run] at step
      cases step
      exact (recvPrimaryOrder_inBounds settings call.callbacks call.flags inBounds).holds
        call.bytes _ _ run
  have kept := foldlM_ok_invariant preserved primaryOrders_zero_inBounds processed
  exact kept

def fewerRectangles : List OrderCall :=
  [⟨ORDER_TYPE_CHANGE, [0x0F, 0x60, 2, 1, 0, 0xFF], ⟨fun _ => true, fun _ => true, fun _ _ => true⟩⟩,
    ⟨0, [0x20, 1], ⟨fun _ => true, fun _ => true, fun _ _ => true⟩⟩]

/-- A second order that announces fewer rectangles leaves the orders in bounds. -/
theorem primary_orders_in_bounds_fewer : ∃ primary : RdpPrimaryUpdate,
    updateRecvPrimaryOrders ⟨fun _ => true, false⟩ {} fewerRectangles = .ok primary ∧
      primary.orders.multiDstblt.numRectangles = 1 ∧ primary.orders.InBounds :=
  ⟨_, rfl, rfl, primary_orders_in_bounds ⟨fun _ => true, false⟩ fewerRectangles _ rfl⟩

end KvmServer.Core
