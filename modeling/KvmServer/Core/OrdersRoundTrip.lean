import KvmServer.Core.OrderWriters

/-! # What is written of a primary order is read back

Every field that a writer puts out is read back by the field of the same number, as long as the
reader's types hold it: coordinates are written as unsigned integers and read as signed ones, and
colours have 24 bits. -/

namespace KvmServer.Core
open Lib Winpr Nat

/-! ## Integers -/

theorem readUint_reads {n value : Nat} (lt : value < 2 ^ (8 * n)) :
    Reads (orderReadUint n) (leBytes n value) value :=
  readLE_reads _ lt

theorem readUint_byte (byte : UInt8) : Reads (orderReadUint 1) [byte] byte.toNat := by
  have rd := readUint_reads (n := 1) byte.toNat_lt
  rwa [leBytes, leBytes, UInt8.ofNat_toNat] at rd

theorem signedValue_of_fits {value : Int} (fits : checkValFitsInt16 value) :
    signedValue 16 (value % 2 ^ 16).toNat = value := by
  obtain ⟨_, _⟩ := fits
  have cast : ((value % 2 ^ 16).toNat : Int) = value % 2 ^ 16 := Int.toNat_of_nonneg (by omega)
  rw [signedValue, cast, Int.bmod_def]
  omega

/-! ## Fields -/

section Fields
variable {info : OrderInfo} {num : Nat} (set : orderFieldFlagIsSet info.fieldFlags num = true)

theorem field_reads {α : Type} {fieldFlg num : Nat} {target value : α} {read : OrderReader α}
    {bytes : List UInt8} (set : orderFieldFlagIsSet fieldFlg num = true) (rd : Reads read bytes value) :
    Reads (readOrderField fieldFlg num target read) bytes value := by
  rwa [readOrderField, if_pos set]

variable {value target : Nat} {bs : List UInt8}

theorem writeUint_reads {n : Nat} (written : orderWriteUint n value = .ok bs) :
    Reads (orderReadUint n) bs value := by
  obtain ⟨_, cast, res⟩ := bind_eq_ok.mp written
  obtain ⟨rfl, lt⟩ := assertingCast_ok cast
  cases res
  exact readUint_reads lt

include set

theorem byteField_reads (written : orderWriteUint 1 value = .ok bs) :
    Reads (readOrderFieldByte info num target) bs value :=
  field_reads set (writeUint_reads written)

theorem uint16_reads (written : orderWriteUint 2 value = .ok bs) :
    Reads (readOrderFieldUint16 info num target) bs value :=
  field_reads set (writeUint_reads written)

theorem int16_reads {target value : Int} (written : orderWriteInt16 value = .ok bs) :
    Reads (readOrderFieldInt16 info num target) bs value := by
  unfold orderWriteInt16 at written
  split at written
  next fits =>
    cases written
    have rd := (@readUint_reads 2 (value % 2 ^ 16).toNat (by omega)).map (signedValue 16)
    rw [signedValue_of_fits fits] at rd
    exact field_reads set rd
  next => cases written

theorem color_reads {color : Nat} (fits : color < 2 ^ 24) :
    Reads (readOrderFieldColor info num target) (updateWriteColor color) color :=
  field_reads set (readUint_reads fits)

theorem coord_reads {target coord : Int} (absent : info.deltaCoordinates = false)
    (le : coord ≤ 0x7FFF) (written : updateWriteCoord coord = .ok bs) :
    Reads (readOrderFieldCoord info num target) bs coord := by
  unfold updateWriteCoord at written
  split at written
  next => cases written
  next =>
    cases written
    have fits : checkValFitsInt16 coord := ⟨by omega, le⟩
    have same : (coord % 2 ^ 16).toNat = coord.toNat := by omega
    have rd := (@readUint_reads 2 coord.toNat (by omega)).map (signedValue 16)
    rw [← same, signedValue_of_fits fits, same] at rd
    apply field_reads set
    rw [absent]
    exact rd

end Fields

/-! ## Brushes -/

/-- What is read of a brush that was written: the index and the depth of one that is not cached do
not come. -/
def RdpBrush.readOver (previous written : RdpBrush) : RdpBrush :=
  if written.style &&& CACHED_BRUSH ≠ 0 then written
  else { written with index := previous.index, bpp := previous.bpp }

theorem readBrushData_reads (p8x8 : Vector UInt8 8) {hatch : Nat} (lt : hatch < 2 ^ 8) :
    Reads (readBrushData hatch) [p8x8[7], p8x8[6], p8x8[5], p8x8[4], p8x8[3], p8x8[2], p8x8[1]]
      (p8x8.set 0 (UInt8.ofNat hatch)) := by
  have rows :
    #v[hatch, p8x8[1].toNat, p8x8[2].toNat, p8x8[3].toNat, p8x8[4].toNat, p8x8[5].toNat, p8x8[6].toNat,
      p8x8[7].toNat].map UInt8.ofNat = p8x8.set 0 (UInt8.ofNat hatch) := by
    apply Vector.ext
    intro i inside
    match i, inside with
    | 0, _ | 1, _ | 2, _ | 3, _ | 4, _ | 5, _ | 6, _ | 7, _ => simp
  have asserted : Reads (orderAssert (hatch ≤ 0xFF)) [] () := by
    rw [orderAssert, if_pos (le_of_lt_succ lt)]
    exact .pure ()
  rw [← rows]
  exact (readUint_byte _).bind ((readUint_byte _).bind ((readUint_byte _).bind
    ((readUint_byte _).bind ((readUint_byte _).bind ((readUint_byte _).bind
      ((readUint_byte _).bind (asserted.map _)))))))

variable {brush : RdpBrush} {written : BrushWritten}

theorem updateReadBrush_reads (prev : RdpBrush) (res : updateWriteBrush brush 0x1F = .ok written)
    (ok : written.ok = true) :
    Reads (updateReadBrush prev 0x1F) written.bytes (prev.readOver written.brush) := by
  simp only [updateWriteBrush, bind_eq_ok] at res
  obtain ⟨x, writtenX, y, writtenY, style, writtenStyle, res⟩ := res
  have rdX := @field_reads _ 0x1F 1 prev.x _ _ _ rfl (writeUint_reads writtenX)
  have rdY := @field_reads _ 0x1F 2 prev.y _ _ _ rfl (writeUint_reads writtenY)
  have rdStyle := @field_reads _ 0x1F 3 prev.style _ _ _ rfl (writeUint_reads writtenStyle)
  split at res
  next cached =>
    split at res
    next =>
      cases res
      cases ok
    next bpp depth =>
      obtain ⟨hatch, writtenHatch, lt, rfl⟩ := writeBrushData_ok res
      have rdHatch := @field_reads _ 0x1F 4 prev.hatch _ _ _ rfl (writeUint_reads writtenHatch)
      have rdCached : Reads (readCachedBrush prev brush.style brush.index) []
          (brush.index, if bpp = 0 then 1 else bpp) := by
        rw [readCachedBrush, if_pos cached, depth]
        exact .pure _
      have rdData := @field_reads _ 0x1F 5 prev.p8x8 _ _ _ rfl (readBrushData_reads brush.p8x8 lt)
      rw [RdpBrush.readOver, if_pos cached, List.append_assoc, List.append_assoc]
      exact rdX.bind (rdY.bind (rdStyle.bind (rdHatch.bind (rdCached.bind (rdData.map _)))))
  next plain =>
    obtain ⟨hatch, writtenHatch, lt, rfl⟩ := writeBrushData_ok res
    have rdHatch := @field_reads _ 0x1F 4 prev.hatch _ _ _ rfl (writeUint_reads writtenHatch)
    have rdCached : Reads (readCachedBrush prev brush.style brush.hatch) [] (prev.index, prev.bpp) := by
      rw [readCachedBrush, if_neg plain]
      exact .pure _
    have rdData := @field_reads _ 0x1F 5 prev.p8x8 _ _ _ rfl (readBrushData_reads brush.p8x8 lt)
    rw [RdpBrush.readOver, if_neg plain, List.append_assoc, List.append_assoc]
    exact rdX.bind (rdY.bind (rdStyle.bind (rdHatch.bind (rdCached.bind (rdData.map _)))))

theorem BrushWritten.ok_of_check {done : Unit} (chkd : written.check = .ok done) :
    written.ok = true := by
  unfold BrushWritten.check at chkd
  split at chkd
  next ok => exact ok
  next => cases chkd

/-! ## Colours in bytes, and packed fields -/

theorem readColorByte_reads {fieldFlg number color mask shift : Nat}
    (set : orderFieldFlagIsSet fieldFlg number = true) (byte : UInt8) :
    Reads (readOrderField fieldFlg number color do
      let byte ← orderReadUint 1
      return color &&& mask ||| byte <<< shift) [byte] (color &&& mask ||| byte.toNat <<< shift) :=
  field_reads set ((readUint_byte byte).map fun byte => color &&& mask ||| byte <<< shift)

variable {color : Nat} {info : OrderInfo}

theorem color_of_bytes (prev : Nat) (fits : color < 2 ^ 24) :
    ((prev &&& 0x00FFFF00 ||| byteAt 0 color <<< (8 * 0)) &&& 0x00FF00FF ||| byteAt 1 color <<<
      (8 * 1)) &&& 0x0000FFFF ||| byteAt 2 color <<< (8 * 2) = color := by
  have lt (i : Nat) : byteAt i color < 2 ^ 8 := by
    rw [byteAt_eq]
    exact mod_lt _ (Nat.two_pow_pos 8)
  have all : ∀ x : Nat, x &&& 0x0000FFFF ||| byteAt 2 color <<< (8 * 2) < 2 ^ 24 := by
    intro x
    apply or_lt_two_pow
    · exact lt_of_le_of_lt and_le_right (by decide)
    have := lt 2
    omega
  apply eq_of_byteAt (all _) fits
  · rw [byteAt_masked _ (by decide) (byteAt_shiftLeft_of_ne (lt 2) (by decide)),
      byteAt_masked _ (by decide) (byteAt_shiftLeft_of_ne (lt 1) (by decide)),
      byteAt_replaced _ (by decide), byteAt_shiftLeft_self 0 (lt 0)]
  · rw [byteAt_masked _ (by decide) (byteAt_shiftLeft_of_ne (lt 2) (by decide)),
      byteAt_replaced _ (by decide), byteAt_shiftLeft_self 1 (lt 1)]
  · rw [byteAt_replaced _ (by decide), byteAt_shiftLeft_self 2 (lt 2)]

theorem toNat_masked_byte (color i : Nat) {mask : Nat} (only : mask >>> (8 * i) = 0xFF) :
    (UInt8.ofNat ((color &&& mask) >>> (8 * i))).toNat = byteAt i color := by
  rw [shiftRight_and_distrib, only, ← byteAt, UInt8.toNat_ofNat', byteAt_eq, mod_mod]

theorem readOrderColorBytes_reads (red : orderFieldFlagIsSet info.fieldFlags 5 = true)
    (green : orderFieldFlagIsSet info.fieldFlags 6 = true)
    (blue : orderFieldFlagIsSet info.fieldFlags 7 = true)
    (prev : Nat) (fits : color < 2 ^ 24) : Reads (readOrderColorBytes info prev)
      [UInt8.ofNat (color &&& 0x000000FF), UInt8.ofNat ((color &&& 0x0000FF00) >>> 8),
        UInt8.ofNat ((color &&& 0x00FF0000) >>> 16)] color := by
  have bytes := color_of_bytes prev fits
  rw [← @toNat_masked_byte color 0 0x000000FF (by decide),
    ← @toNat_masked_byte color 1 0x0000FF00 (by decide),
    ← @toNat_masked_byte color 2 0x00FF0000 (by decide)] at bytes
  have rd : Reads (readOrderColorBytes info prev) _ _ :=
    (@readColorByte_reads _ _ prev 0x00FFFF00 (8 * 0) red
      (UInt8.ofNat ((color &&& 0x000000FF) >>> (8 * 0)))).bind
    ((@readColorByte_reads _ _ _ 0x00FF00FF (8 * 1) green
      (UInt8.ofNat ((color &&& 0x0000FF00) >>> (8 * 1)))).bind
    (@readColorByte_reads _ _ _ 0x0000FFFF (8 * 2) blue
      (UInt8.ofNat ((color &&& 0x00FF0000) >>> (8 * 2)))))
  rw [bytes] at rd
  exact rd

theorem packed_cacheId {cacheId colorIndex : Nat} (lowId : cacheId ≤ 0xFF) (lowIdx : colorIndex ≤ 0xFF) :
    let packed := cacheId &&& 0xFF ||| (colorIndex &&& 0xFF) <<< 8
    packed < 2 ^ 16 ∧ packed &&& 0xFF = cacheId ∧ packed >>> 8 = colorIndex := by
  intro packed
  have sum : packed = cacheId + colorIndex * 2 ^ 8 := by
    change cacheId &&& (2 ^ 8 - 1) ||| (colorIndex &&& (2 ^ 8 - 1)) <<< 8 = _
    rw [and_two_pow_sub_one_of_lt_two_pow (by omega), and_two_pow_sub_one_of_lt_two_pow (by omega),
      or_shiftLeft_eq colorIndex (by omega)]
  rw [show (0xFF : Nat) = 2 ^ 8 - 1 from rfl, and_two_pow_sub_one_eq_mod, shiftRight_eq_div_pow]
  omega

theorem readOrderData_reads {number cbData prevCb : Nat} {data prev cb : List UInt8}
    (set : orderFieldFlagIsSet info.fieldFlags number = true) (size : data.length = 256)
    (written : orderWriteUint 1 cbData = .ok cb) :
    Reads (readOrderData info number prevCb prev) (cb ++ data.take cbData)
      (cbData, copyMemory prev (data.take cbData)) := by
  have lt : cbData < 2 ^ 8 := by
    obtain ⟨_, cast, -⟩ := bind_eq_ok.mp written
    exact (assertingCast_ok cast).2
  have len : (data.take cbData).length = cbData := List.length_take_of_le (by omega)
  exact field_reads set ((writeUint_reads written).bind ((readBytes_reads _ len).map _))

/-! ## What can be sent -/

def DstbltOrder.Sendable (order : DstbltOrder) : Prop :=
  order.nLeftRect ≤ 0x7FFF ∧ order.nTopRect ≤ 0x7FFF ∧ order.nWidth ≤ 0x7FFF ∧ order.nHeight ≤ 0x7FFF

def PatbltOrder.Sendable (order : PatbltOrder) : Prop :=
  order.nLeftRect ≤ 0x7FFF ∧ order.nTopRect ≤ 0x7FFF ∧ order.nWidth ≤ 0x7FFF ∧ order.nHeight ≤ 0x7FFF ∧
    order.backColor < 2 ^ 24 ∧ order.foreColor < 2 ^ 24 ∧
    (order.brush.style &&& CACHED_BRUSH ≠ 0 → getBmfBpp order.brush.style ≠ none)

def ScrbltOrder.Sendable (order : ScrbltOrder) : Prop :=
  order.nLeftRect ≤ 0x7FFF ∧ order.nTopRect ≤ 0x7FFF ∧ order.nWidth ≤ 0x7FFF ∧ order.nHeight ≤ 0x7FFF ∧
    order.nXSrc ≤ 0x7FFF ∧ order.nYSrc ≤ 0x7FFF

def OpaqueRectOrder.Sendable (order : OpaqueRectOrder) : Prop :=
  order.nLeftRect ≤ 0x7FFF ∧ order.nTopRect ≤ 0x7FFF ∧ order.nWidth ≤ 0x7FFF ∧ order.nHeight ≤ 0x7FFF ∧
    order.color < 2 ^ 24

def LineToOrder.Sendable (order : LineToOrder) : Prop :=
  order.nXStart ≤ 0x7FFF ∧ order.nYStart ≤ 0x7FFF ∧ order.nXEnd ≤ 0x7FFF ∧ order.nYEnd ≤ 0x7FFF ∧
    order.backColor < 2 ^ 24 ∧ order.penColor < 2 ^ 24

def MembltOrder.Sendable (order : MembltOrder) : Prop :=
  order.nLeftRect ≤ 0x7FFF ∧ order.nTopRect ≤ 0x7FFF ∧ order.nWidth ≤ 0x7FFF ∧ order.nHeight ≤ 0x7FFF ∧
    order.nXSrc ≤ 0x7FFF ∧ order.nYSrc ≤ 0x7FFF ∧ order.cacheId ≤ 0xFF ∧ order.colorIndex ≤ 0xFF

def GlyphIndexOrder.Sendable (order : GlyphIndexOrder) : Prop :=
    order.foreColor < 2 ^ 24 ∧ order.data.length = 256

def GlyphIndexOrder.readOver (previous written : GlyphIndexOrder) : GlyphIndexOrder :=
  { written with
    brush := previous.brush.readOver written.brush
    data := copyMemory previous.data (written.data.take written.cbData) }

/-- What is written of an order that can be sent is read as the writer left it, up to what is not
sent. -/
def ReadBack {α : Type} (write : α → Except Stop (OrderWritten α)) (read : OrderInfo → α → OrderReader α)
    (Sendable : α → Prop) (received : α → α → α) : Prop :=
  ∀ (order previous : α) (written : OrderWritten α) (info : OrderInfo), Sendable order →
    write order = .ok written →
    info.fieldFlags = written.fieldFlags → info.deltaCoordinates = false →
    Reads (read info previous) written.bytes (received previous written.order)

/-! ## Orders -/

theorem firstFields_set {fieldFlg old n : Nat} (flags : fieldFlg = old ||| firstFields n) (i : Fin n) :
    orderFieldFlagIsSet fieldFlg (i.val + 1) = true := by
  have inside : (firstFields n).testBit i = true := by
    rw [firstFields, testBit_two_pow_sub_one]
    exact decide_eq_true i.isLt
  have bit : fieldFlg.testBit i = true := by rw [flags, testBit_or, inside, Bool.or_true]
  rw [orderFieldFlagIsSet, Nat.add_sub_cancel, one_shiftLeft, and_two_pow, bit]
  simp

theorem dstblt_readBack :
    ReadBack updateWriteDstbltOrder updateReadDstbltOrder DstbltOrder.Sendable fun _ written =>
    written := by
  rintro _ _ written _ ⟨left, top, width, height⟩ res flags absent
  simp only [updateWriteDstbltOrder, bind_eq_ok] at res
  obtain ⟨_, writtenLeft, _, writtenTop, _, writtenWidth, _, writtenHeight, _, writtenRop, res⟩ := res
  cases res
  have set := firstFields_set (flags.trans (zero_or _).symm)
  exact (coord_reads (set 0) absent left writtenLeft).bind
    ((coord_reads (set 1) absent top writtenTop).bind
    ((coord_reads (set 2) absent width writtenWidth).bind
    ((coord_reads (set 3) absent height writtenHeight).bind
    ((byteField_reads (set 4) writtenRop).map _))))

theorem scrblt_readBack :
    ReadBack updateWriteScrbltOrder updateReadScrbltOrder ScrbltOrder.Sendable fun _ written =>
    written := by
  rintro _ _ written _ ⟨left, top, width, height, xSrc, ySrc⟩ res flags absent
  simp only [updateWriteScrbltOrder, bind_eq_ok] at res
  obtain ⟨_, writtenLeft, _, writtenTop, _, writtenWidth, _, writtenHeight, _,
    writtenRop, _, writtenXSrc, _, writtenYSrc, res⟩ := res
  cases res
  have set := firstFields_set (flags.trans (zero_or _).symm)
  exact (coord_reads (set 0) absent left writtenLeft).bind
    ((coord_reads (set 1) absent top writtenTop).bind
    ((coord_reads (set 2) absent width writtenWidth).bind
    ((coord_reads (set 3) absent height writtenHeight).bind
    ((byteField_reads (set 4) writtenRop).bind
    ((coord_reads (set 5) absent xSrc writtenXSrc).bind
    ((coord_reads (set 6) absent ySrc writtenYSrc).map _))))))

theorem lineTo_readBack :
    ReadBack updateWriteLineToOrder updateReadLineToOrder LineToOrder.Sendable fun _ written =>
    written := by
  rintro _ _ written _ ⟨xSt, ySt, xEnd, yEnd, back, pen⟩ res flags absent
  simp only [updateWriteLineToOrder, bind_eq_ok] at res
  obtain ⟨_, writtenMode, _, writtenXSt, _, writtenYSt, _, writtenXEnd, _,
    writtenYEnd, _, writtenRop, _, writtenStyle, _, writtenWidth, res⟩ := res
  cases res
  have set := firstFields_set (flags.trans (zero_or _).symm)
  exact (uint16_reads (set 0) writtenMode).bind ((coord_reads (set 1) absent xSt writtenXSt).bind
    ((coord_reads (set 2) absent ySt writtenYSt).bind
    ((coord_reads (set 3) absent xEnd writtenXEnd).bind
    ((coord_reads (set 4) absent yEnd writtenYEnd).bind
    ((color_reads (set 5) back).bind
    ((byteField_reads (set 6) writtenRop).bind
    ((byteField_reads (set 7) writtenStyle).bind
    ((byteField_reads (set 8) writtenWidth).bind
    ((color_reads (set 9) pen).map _)))))))))

theorem memblt_readBack (old : Nat) :
    ReadBack (updateWriteMembltOrder old) updateReadMembltOrder MembltOrder.Sendable
    fun _ written => written := by
  rintro ordered prev written info ⟨left, top, width, height, xSrc, ySrc, lowId, lowIdx⟩ res flags absent
  simp only [updateWriteMembltOrder, bind_eq_ok] at res
  obtain ⟨_, writtenLeft, _, writtenTop, _, writtenWidth, _, writtenHeight, _,
    writtenRop, _, writtenXSrc, _, writtenYSrc, _, writtenIdx, res⟩ := res
  cases res
  have set := firstFields_set flags
  obtain ⟨lt, id, idx⟩ := packed_cacheId lowId lowIdx
  -- the reader splits the packed field into what went into it
  have rd : Reads (updateReadMembltOrder info prev) _ { ordered with
        cacheId := (ordered.cacheId &&& 0xFF ||| (ordered.colorIndex &&& 0xFF) <<< 8) &&& 0xFF
        colorIndex := (ordered.cacheId &&& 0xFF ||| (ordered.colorIndex &&& 0xFF) <<< 8) >>> 8 } :=
    (field_reads (set 0) (@readUint_reads 2 _ lt)).bind
    ((coord_reads (set 1) absent left writtenLeft).bind
    ((coord_reads (set 2) absent top writtenTop).bind
    ((coord_reads (set 3) absent width writtenWidth).bind
    ((coord_reads (set 4) absent height writtenHeight).bind
    ((byteField_reads (set 5) writtenRop).bind
    ((coord_reads (set 6) absent xSrc writtenXSrc).bind
    ((coord_reads (set 7) absent ySrc writtenYSrc).bind
    ((uint16_reads (set 8) writtenIdx).map _))))))))
  rw [id, idx] at rd
  exact rd

theorem opaqueRect_readBack :
    ReadBack updateWriteOpaqueRectOrder updateReadOpaqueRectOrder OpaqueRectOrder.Sendable
    fun _ written => written := by
  rintro _ prev written _ ⟨left, top, width, height, fits⟩ res flags absent
  simp only [updateWriteOpaqueRectOrder, bind_eq_ok] at res
  obtain ⟨_, writtenLeft, _, writtenTop, _, writtenWidth, _, writtenHeight, res⟩ := res
  cases res
  have set := firstFields_set (flags.trans (zero_or _).symm)
  exact (coord_reads (set 0) absent left writtenLeft).bind
    ((coord_reads (set 1) absent top writtenTop).bind
    ((coord_reads (set 2) absent width writtenWidth).bind
    ((coord_reads (set 3) absent height writtenHeight).bind
    ((readOrderColorBytes_reads (set 4) (set 5) (set 6) prev.color fits).map _))))

theorem writeBrush_complete (known : brush.style &&& CACHED_BRUSH ≠ 0 → getBmfBpp brush.style ≠ none)
    (res : updateWriteBrush brush 0x1F = .ok written) : written.ok = true := by
  simp only [updateWriteBrush, bind_eq_ok] at res
  obtain ⟨x, -, y, -, style, -, res⟩ := res
  split at res
  next cached =>
    split at res
    next unk => exact absurd unk (known cached)
    next =>
      obtain ⟨hatch, -, -, rfl⟩ := writeBrushData_ok res
      rfl
  next =>
    obtain ⟨hatch, -, -, rfl⟩ := writeBrushData_ok res
    rfl

theorem patblt_readBack :
    ReadBack updateWritePatbltOrder updateReadPatbltOrder PatbltOrder.Sendable fun prev written =>
      { written with brush := prev.brush.readOver written.brush } := by
  rintro _ prev written info ⟨left, top, width, height, back, fore, known⟩ res flags absent
  simp only [updateWritePatbltOrder, bind_eq_ok] at res
  obtain ⟨_, writtenLeft, _, writtenTop, _, writtenWidth, _, writtenHeight, _,
    writtenRop, brush, writtenBrush, res⟩ := res
  cases res
  have set := firstFields_set (flags.trans (zero_or _).symm)
  have brushRd := updateReadBrush_reads prev.brush writtenBrush (writeBrush_complete known writtenBrush)
  have brushFlg : brushFieldFlags info 7 = 0x1F := by
    rw [brushFieldFlags, flags]
    change firstFields 12 >>> 7 &&& 0x1F = 0x1F
    decide
  rw [← brushFlg] at brushRd
  exact (coord_reads (set 0) absent left writtenLeft).bind
    ((coord_reads (set 1) absent top writtenTop).bind
    ((coord_reads (set 2) absent width writtenWidth).bind
    ((coord_reads (set 3) absent height writtenHeight).bind
    ((byteField_reads (set 4) writtenRop).bind
    ((color_reads (set 5) back).bind
    ((color_reads (set 6) fore).bind
    (brushRd.map _)))))))

theorem glyphIndex_readBack :
    ReadBack updateWriteGlyphIndexOrder updateReadGlyphIndexOrder GlyphIndexOrder.Sendable
      GlyphIndexOrder.readOver := by
  rintro _ prev _ info ⟨fore, size⟩ res flags _
  simp only [updateWriteGlyphIndexOrder, bind_eq_ok] at res
  obtain ⟨_, writtenId, _, writtenAccel, _, writtenInc, _, writtenRedundant, _, castBack, res⟩ := res
  obtain ⟨rfl, back⟩ := assertingCast_ok castBack
  obtain ⟨_, writtenBkLeft, _, writtenBkTop, _, writtenBkRight, _, writtenBkBot, _,
    writtenOpLeft, _, writtenOpTop, _, writtenOpRight, _, writtenOpBot, brush, writtenBrush, _,
    checked, x, writtenX, y, writtenY, _, writtenCb, res⟩ := res
  cases res
  have set := firstFields_set (flags.trans (zero_or _).symm)
  have brushRd := updateReadBrush_reads prev.brush writtenBrush (BrushWritten.ok_of_check checked)
  have brushFlg : brushFieldFlags info 14 = 0x1F := by
    rw [brushFieldFlags, flags]
    change firstFields 22 >>> 14 &&& 0x1F = 0x1F
    decide
  rw [← brushFlg] at brushRd
  exact (byteField_reads (set 0) writtenId).bind ((byteField_reads (set 1) writtenAccel).bind
    ((byteField_reads (set 2) writtenInc).bind
    ((byteField_reads (set 3) writtenRedundant).bind
    ((color_reads (set 4) (lt_trans back (by decide))).bind
    ((color_reads (set 5) fore).bind
    ((int16_reads (set 6) writtenBkLeft).bind
    ((int16_reads (set 7) writtenBkTop).bind
    ((int16_reads (set 8) writtenBkRight).bind
    ((int16_reads (set 9) writtenBkBot).bind
    ((int16_reads (set 10) writtenOpLeft).bind
    ((int16_reads (set 11) writtenOpTop).bind
    ((int16_reads (set 12) writtenOpRight).bind
    ((int16_reads (set 13) writtenOpBot).bind
    (brushRd.bind
    ((int16_reads (set 19) writtenX).bind
    ((int16_reads (set 20) writtenY).bind
    ((readOrderData_reads (set 21) size writtenCb).map _)))))))))))))))))

/-- Every `dstblt`, `patblt`, `scrblt`, `opaque_rect`, `line_to`, `memblt` and `glyph_index` order
that can be sent is read back over any previous order. -/
theorem primary_orders_read_back :
    (ReadBack updateWriteDstbltOrder updateReadDstbltOrder DstbltOrder.Sendable
      fun _ written => written) ∧
    (ReadBack updateWritePatbltOrder updateReadPatbltOrder PatbltOrder.Sendable fun previous written =>
      { written with brush := previous.brush.readOver written.brush }) ∧
    (ReadBack updateWriteScrbltOrder updateReadScrbltOrder ScrbltOrder.Sendable
      fun _ written => written) ∧
    (ReadBack updateWriteOpaqueRectOrder updateReadOpaqueRectOrder OpaqueRectOrder.Sendable
      fun _ written => written) ∧
    (ReadBack updateWriteLineToOrder updateReadLineToOrder LineToOrder.Sendable
      fun _ written => written) ∧
    (∀ old, ReadBack
      (updateWriteMembltOrder old) updateReadMembltOrder MembltOrder.Sendable fun _ written =>
      written) ∧
    ReadBack updateWriteGlyphIndexOrder updateReadGlyphIndexOrder GlyphIndexOrder.Sendable
      GlyphIndexOrder.readOver :=
  ⟨dstblt_readBack, patblt_readBack, scrblt_readBack, opaqueRect_readBack,
    lineTo_readBack, memblt_readBack,
    glyphIndex_readBack⟩

/-- A rectangle at the edge of the coordinates that come back. -/
theorem primary_orders_read_back_edge : ∃ written,
    updateWriteDstbltOrder ⟨0x7FFF, 0, 0x7FFF, 1, 0xCC⟩ = .ok written ∧
      Reads (updateReadDstbltOrder { fieldFlags := written.fieldFlags }
        { nLeftRect := 3, bRop := 5 }) written.bytes
        ⟨0x7FFF, 0, 0x7FFF, 1, 0xCC⟩ :=
  ⟨_, rfl, primary_orders_read_back.1 ⟨0x7FFF, 0, 0x7FFF, 1, 0xCC⟩ _ _ _
    (by unfold DstbltOrder.Sendable; decide) rfl rfl rfl⟩

/-- A coordinate with its sign bit set, the high byte of a colour, the high bytes of the ids of a
`memblt`, a `patblt` with a cached brush in an unknown format, and the index and the depth of a
brush that is not cached. -/
theorem primary_orders_not_read_back :
    (∃ written order, updateWriteDstbltOrder { nLeftRect := 40000 } = .ok written ∧
      (updateReadDstbltOrder { fieldFlags := written.fieldFlags } {}).run written.bytes =
        .ok (order, []) ∧
      order.nLeftRect = -25536) ∧
    (∃ written order, updateWriteLineToOrder { penColor := 0x1000000 } = .ok written ∧
      (updateReadLineToOrder { fieldFlags := written.fieldFlags } {}).run written.bytes =
        .ok (order, []) ∧
      order.penColor = 0) ∧
    (∃ written order, updateWriteMembltOrder 0 { cacheId := 0x100, colorIndex := 0x100 } = .ok written ∧
      (updateReadMembltOrder { fieldFlags := written.fieldFlags } {}).run written.bytes =
        .ok (order, []) ∧
      order.cacheId = 0 ∧ order.colorIndex = 0) ∧
    (∃ written, updateWritePatbltOrder { brush := { style := 0x80 } } = .ok written ∧
      (updateReadPatbltOrder { fieldFlags := written.fieldFlags } {}).run written.bytes =
        .error .refused) ∧
    ∃ written order, updateWritePatbltOrder { brush := { index := 1, bpp := 8 } } = .ok written ∧
      (updateReadPatbltOrder { fieldFlags := written.fieldFlags } {}).run written.bytes =
        .ok (order, []) ∧
      order.brush.index = 0 ∧ order.brush.bpp = 0 :=
  ⟨⟨_, _, rfl, rfl, by decide⟩, ⟨_, _, rfl, rfl, by decide⟩,
    ⟨_, _, rfl, rfl, by decide, by decide⟩, ⟨_, rfl, rfl⟩,
    _, _, rfl, rfl, rfl, rfl⟩

end KvmServer.Core
