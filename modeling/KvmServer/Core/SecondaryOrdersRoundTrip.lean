import KvmServer.Core.OrdersRoundTrip
import KvmServer.Core.SecondaryOrders

/-! # What is written of a cache order is read back

The bitmap, glyph and brush orders come back up to the fields that are not sent.  A colour table
never does: it is written with three bytes for each colour and read with four. -/

namespace KvmServer.Core
open Lib Winpr List Nat

/-! ## Integers of varying length -/

theorem long_byte :
    ∀ n < 128, (n ||| 0x80) < 256 ∧ (n ||| 0x80) &&& 0x80 ≠ 0 ∧ (n ||| 0x80) &&& 0x7F = n := by
  decide

theorem short_byte : ∀ n < 128, n &&& 0x80 = 0 ∧ n &&& 0x7F = n := by decide

theorem readUint_ofNat {n : Nat} (lt : n < 256) : Reads (orderReadUint 1) [UInt8.ofNat n] n := by
  have rd := readUint_byte (UInt8.ofNat n)
  rwa [UInt8.toNat_ofNat_of_lt' lt] at rd

theorem two_bytes (value : Nat) : (value / 2 ^ 8) <<< 8 ||| (value &&& 0xFF) = value := by
  have low : value &&& 0xFF = value % 2 ^ 8 := and_two_pow_sub_one_eq_mod value 8
  have lt : value % 2 ^ 8 < 2 ^ 8 := mod_lt _ (by decide)
  rw [low, ← shiftLeft_add_eq_or_of_lt lt, shiftLeft_eq, mul_comm]
  exact div_add_mod value (2 ^ 8)

variable {value id flags : Nat} {bytes : List UInt8}

theorem read2byteUnsigned_reads (written : updateWrite2byteUnsigned value = .ok bytes) :
    Reads updateRead2byteUnsigned bytes value := by
  unfold updateWrite2byteUnsigned at written
  split at written
  next => cases written
  next =>
    split at written
    next =>
      cases written
      have high : (value &&& 0x7F00) >>> 8 = value / 2 ^ 8 := by
        rw [show (0x7F00 : Nat) = (2 ^ 7 - 1) <<< 8 from rfl, shiftRight_field]
        omega
      obtain ⟨lt, flag, rest⟩ := long_byte (value / 2 ^ 8) (by omega)
      have low : value &&& 0xFF < 256 := and_lt_two_pow value (by decide : 0xFF < 2 ^ 8)
      rw [high]
      apply Reads.cons (readUint_ofNat lt)
      rw [if_pos flag, rest]
      have rd := (readUint_ofNat low).map (fun low => (value / 2 ^ 8) <<< 8 ||| low)
      rwa [two_bytes] at rd
    next =>
      cases written
      obtain ⟨flag, rest⟩ := short_byte value (by omega)
      rw [rest]
      apply Reads.cons (readUint_ofNat (by omega))
      rw [if_neg (not_not_intro flag), rest]
      exact .pure value

theorem signed_byte : ∀ n < 64, ∀ sign ∈ [0, 0x40],
    (n ||| sign) < 256 ∧ (n ||| sign) &&& 0x80 = 0 ∧ (n ||| sign) &&& 0x3F = n ∧
    (n ||| sign) &&& 0x40 = sign ∧
    (n ||| sign ||| 0x80) < 256 ∧ (n ||| sign ||| 0x80) &&& 0x80 ≠ 0 ∧
    (n ||| sign ||| 0x80) &&& 0x3F = n ∧ (n ||| sign ||| 0x80) &&& 0x40 = sign := by
  decide

theorem sign_negated32 {value : Int} (ge : -2 ^ 31 < value) :
    (if (if value < 0 then 0x40 else 0) ≠ 0 then -((negated32 value).toNat : Int)
      else (negated32 value).toNat) = value := by
  unfold negated32
  by_cases neg : value < 0
  · rw [if_pos neg, if_pos neg, if_pos (by decide), Int.bmod_def]
    omega
  rw [if_neg neg, if_neg neg, if_neg (by decide)]
  omega

/-- The smallest number is left out: it has no magnitude. -/
theorem read2byteSigned_reads {value : Int} (ge : -2 ^ 31 < value)
    (written : updateWrite2byteSigned value = .ok bytes) : Reads updateRead2byteSigned bytes value := by
  unfold updateWrite2byteSigned at written
  dsimp only at written
  split at written
  next => cases written
  next fits =>
    have all := sign_negated32 ge
    generalize negated32 value = magnitude at written fits all
    have sign : (if value < 0 then 0x40 else 0) ∈ [0, 0x40] := by split <;> decide
    generalize (if value < 0 then 0x40 else 0) = flag at written all sign
    split at written
    next =>
      cases written
      have high : (magnitude.toNat &&& 0x3F00) >>> 8 = magnitude.toNat / 2 ^ 8 := by
        rw [show (0x3F00 : Nat) = (2 ^ 6 - 1) <<< 8 from rfl, shiftRight_field]
        omega
      obtain ⟨-, -, -, -, lt, long, rest, signed⟩ :=
        signed_byte (magnitude.toNat / 2 ^ 8) (by omega) flag sign
      have low : magnitude.toNat &&& 0xFF < 256 := and_lt_two_pow _ (by decide : 0xFF < 2 ^ 8)
      rw [high]
      apply Reads.cons (readUint_ofNat lt)
      rw [if_pos long, rest, signed]
      apply Reads.cons (readUint_ofNat low)
      rw [two_bytes]
      apply Reads.step (.pure _)
      beta_reduce
      rw [all]
      exact .pure value
    next =>
      cases written
      have low : magnitude.toNat &&& 0x3F = magnitude.toNat :=
        and_two_pow_sub_one_of_lt_two_pow (n := 6) (by omega)
      obtain ⟨lt, long, rest, signed, -⟩ := signed_byte magnitude.toNat (by omega) flag sign
      rw [low]
      apply Reads.cons (readUint_ofNat lt)
      rw [if_neg (not_not_intro long), rest, signed]
      apply Reads.step (.pure _)
      beta_reduce
      rw [all]
      exact .pure value

theorem counted_byte : ∀ n < 64, ∀ count < 4, (n ||| count <<< 6) < 256 ∧
    ((n ||| count <<< 6) &&& 0xC0) >>> 6 = count ∧ (n ||| count <<< 6) &&& 0x3F = n := by
  decide

theorem write4bytes_reads {count : Nat} (few : count < 4) (fits : value < 2 ^ (8 * count) * 64) :
    Reads updateRead4byteUnsigned (write4bytes count value) value := by
  have high : value >>> (8 * count) < 64 := by
    rw [shiftRight_eq_div_pow]
    exact Nat.div_lt_of_lt_mul fits
  have same : value >>> (8 * count) &&& 0x3F = value >>> (8 * count) :=
    and_two_pow_sub_one_of_lt_two_pow (n := 6) high
  obtain ⟨lt, counted, rest⟩ := counted_byte (value >>> (8 * count)) high count few
  have all : (value >>> (8 * count)) <<< (8 * count) ||| beValue (beBytes count value) = value := by
    rw [beValue_beBytes, ← shiftLeft_add_eq_or_of_lt (mod_lt _ (Nat.two_pow_pos _)), shiftLeft_eq,
      shiftRight_eq_div_pow, mul_comm]
    exact div_add_mod value _
  rw [write4bytes, same]
  apply Reads.cons (readUint_ofNat lt)
  rw [counted, rest]
  have rd := (readBytes_reads Stop.refused (beBytes_length count value)).map
    (fun low => (value >>> (8 * count)) <<< (8 * count) ||| beValue low)
  rwa [all] at rd

theorem read4byteUnsigned_reads (written : updateWrite4byteUnsigned value = .ok bytes) :
    Reads updateRead4byteUnsigned bytes value := by
  unfold updateWrite4byteUnsigned at written
  -- the four lengths are written alike
  repeat' split at written
  all_goals cases written
  all_goals exact write4bytes_reads (by decide) (by omega)

/-! ## Parts of an order -/

variable {condition : Prop} {length bpp cacheId scanline : Nat} {order : CacheBitmapV2Order}
  {data : List UInt8}
  {α : Type} {read : OrderReader α} {entries : List α} (compressed : Bool)

theorem orderRequire_reads [Decidable condition] (h : condition) :
    Reads (orderRequire condition) [] () := by
  rw [orderRequire, if_pos h]
  exact .pure ()

theorem winprAssert_ok [Decidable condition] {done : Unit}
    (res : winprAssert condition = .ok done) : condition := by
  unfold winprAssert at res
  split at res
  next h => exact h
  next => cases res

theorem readOrderBuffer_reads {buffer : List UInt8} (size : buffer.length = length)
    (filled : length ≠ 0) : Reads (readOrderBuffer length) (buffer.take length) buffer := by
  rw [take_of_length_le (le_of_eq size)]
  exact (orderRequire_reads filled).step (readBytes_reads _ size)

theorem readOrderKey_reads (key : UInt32) : Reads readOrderKey (leBytes 4 key.toNat) key := by
  have rd := (@readUint_reads 4 key.toNat key.toNat_lt).map UInt32.ofNat
  rwa [UInt32.ofNat_toNat] at rd

theorem getCbr2Bpp_reads (deep : bpp ≠ 1) (known : getBppBmf bpp = .ok id) :
    id < 2 ^ 4 ∧ Reads (getCbr2Bpp id) [] bpp := by
  unfold getBppBmf at known
  split at known
  case h_1 => exact absurd rfl deep
  case h_6 => cases known
  all_goals
    cases known
    exact ⟨by decide, .pure _⟩

theorem readEntries_reads {pieces : List (List UInt8)}
    (each : List.Forall₂ (Reads read) pieces entries) :
    Reads (readEntries read entries.length) pieces.flatten entries := by
  induction each with
  | nil => exact .pure []
  | cons fst _ later => exact fst.bind (later.map _)

theorem writeEntries_reads {write : α → Except Stop (List UInt8)}
    (each : ∀ entry ∈ entries, ∀ piece, write entry = .ok piece → Reads read piece entry)
    (written : writeEntries write entries = .ok bytes) :
    Reads (readEntries read entries.length) bytes entries := by
  induction entries generalizing bytes with
  | nil =>
    cases written
    exact .pure []
  | cons entry entries later =>
    obtain ⟨piece, writtenEntry, written⟩ := bind_eq_ok.mp written
    obtain ⟨_, writtenLater, written⟩ := bind_eq_ok.mp written
    cases written
    have laterRd := later (fun other mem => each other (mem_cons_of_mem _ mem)) writtenLater
    exact (each entry mem_cons_self piece writtenEntry).bind (laterRd.map _)

theorem bitmap_flags {mask : Nat} (lowId : cacheId ≤ 3) (depth : id < 2 ^ 4) (few : flags ≤ 0x1FF)
    (unmasked : (id <<< 3) &&& mask = id <<< 3) :
    let packed := cacheId &&& 0x0003 ||| (id <<< 3) &&& mask ||| (flags <<< 7) &&& 0xFF80
    packed &&& 0x0003 = cacheId ∧ (packed &&& 0x0078) >>> 3 = id ∧
      (packed &&& 0xFF80) >>> 7 = flags := by
  intro packed
  have sum : packed = cacheId + id * 2 ^ 3 + flags * 2 ^ 7 := by
    change cacheId &&& (2 ^ 2 - 1) ||| (id <<< 3) &&& mask ||| (flags <<< 7) &&& (2 ^ 9 - 1) <<< 7 = _
    rw [and_two_pow_sub_one_of_lt_two_pow (by omega), unmasked, shiftLeft_field 7 (by omega),
      @or_shiftLeft_eq 3 cacheId id (by omega), or_shiftLeft_eq flags (by omega)]
  rw [sum, show (0x0078 : Nat) = (2 ^ 4 - 1) <<< 3 from rfl,
    show (0xFF80 : Nat) = (2 ^ 9 - 1) <<< 7 from rfl,
    shiftRight_field, shiftRight_field, show (0x0003 : Nat) = 2 ^ 2 - 1 from rfl,
      and_two_pow_sub_one_eq_mod]
  omega

/-! ## Orders that can be sent -/

/-- What is written of an order that can be sent is read with the flags that the writer leaves, up
to what is not sent. -/
def CacheReadBack {α : Type} (write : α → Except Stop (OrderWritten α)) (read : Nat → OrderReader α)
    (Sendable : α → Prop) (received : Nat → α → α) : Prop :=
  ∀ (order : α) (written : OrderWritten α), Sendable order → write order = .ok written →
    Reads (read written.fieldFlags) written.bytes (received written.fieldFlags written.order)

structure CacheBitmapOrder.Sendable (order : CacheBitmapOrder) : Prop where
  depth : 1 ≤ order.bitmapBpp ∧ order.bitmapBpp ≤ 32
  filled : order.bitmapLength ≠ 0
  size : order.bitmapDataStream.length = order.bitmapLength

/-- The header of compressed data is never sent. -/
def CacheBitmapOrder.received (compressed : Bool) (order : CacheBitmapOrder) : CacheBitmapOrder :=
  { order with compressed, bitmapComprHdr := List.replicate 8 0 }

structure CacheBitmapV2Order.Sendable (compressed : Bool) (order : CacheBitmapV2Order) : Prop where
  depth : order.bitmapBpp ≠ 1
  filled : (order.normalised compressed).bitmapLength ≠ 0
  size : order.bitmapDataStream.length = (order.normalised compressed).bitmapLength

def CacheBitmapV2Order.received (order : CacheBitmapV2Order) : CacheBitmapV2Order :=
  { order with
    key1 := if order.flags &&& CBR2_PERSISTENT_KEY_PRESENT ≠ 0 then order.key1 else 0
    key2 := if order.flags &&& CBR2_PERSISTENT_KEY_PRESENT ≠ 0 then order.key2 else 0
    bitmapHeight :=
      if order.flags &&& CBR2_HEIGHT_SAME_AS_WIDTH ≠ 0 then order.bitmapWidth else order.bitmapHeight
    toBitmapComprSizes :=
      if HasComprHdr order.compressed order.flags then order.toBitmapComprSizes else {} }

structure CacheBitmapV3Order.Sendable (order : CacheBitmapV3Order) : Prop where
  lowId : order.cacheId ≤ 3
  flags : order.flags ≤ 0x1FF
  depth : order.bpp ≠ 1
  dataDepth : 1 ≤ order.bitmapData.bpp ∧ order.bitmapData.bpp ≤ 32
  filled : order.bitmapData.length.toNat ≠ 0
  size : order.bitmapData.data.length = order.bitmapData.length.toNat

structure GlyphData.Sendable (glyph : GlyphData) : Prop where
  x : checkValFitsInt16 glyph.x
  y : checkValFitsInt16 glyph.y
  cb : glyph.cb = glyphBytes glyph.cx glyph.cy
  size : glyph.aj.length = glyph.cb

/-- The negation of the coordinates does not overflow. -/
structure GlyphDataV2.Sendable (glyph : GlyphDataV2) : Prop where
  x : -2 ^ 31 < glyph.x
  y : -2 ^ 31 < glyph.y
  cb : glyph.cb = glyphBytes glyph.cx glyph.cy
  size : glyph.aj.length = glyph.cb

structure CacheGlyphOrder.Sendable (order : CacheGlyphOrder) : Prop where
  number : order.glyphData.length = order.cGlyphs
  glyphs : ∀ glyph ∈ order.glyphData, glyph.Sendable

structure CacheGlyphV2Order.Sendable (order : CacheGlyphV2Order) : Prop where
  number : order.glyphData.length = order.cGlyphs
  glyphs : ∀ glyph ∈ order.glyphData, glyph.Sendable

def receivedCharacters (flags cGlyphs : Nat) : Option (List Nat) :=
  if flags &&& CG_GLYPH_UNICODE_PRESENT ≠ 0 ∧ cGlyphs > 0 then some (List.replicate cGlyphs 0) else none

def CacheGlyphOrder.received (flags : Nat) (order : CacheGlyphOrder) : CacheGlyphOrder :=
  { order with unicodeCharacters := receivedCharacters flags order.cGlyphs }

def CacheGlyphV2Order.received (flags : Nat) (order : CacheGlyphV2Order) : CacheGlyphV2Order :=
  { order with unicodeCharacters := receivedCharacters flags order.cGlyphs }

/-- The reader takes a brush of 24 bits and this length for a compressed one. -/
structure CacheBrushOrder.Sendable (order : CacheBrushOrder) : Prop where
  size : order.data.length = 256
  plain : ¬(order.cx = 8 ∧ order.cy = 8 ∧ order.bpp = 24 ∧ order.length = 28)

def CacheBrushOrder.sentBytes (order : CacheBrushOrder) : Nat :=
  if order.cx = 8 ∧ order.cy = 8 then if order.bpp = 1 then 8 else 8 * (8 * (order.bpp / 8)) else 0

def CacheBrushOrder.received (order : CacheBrushOrder) : CacheBrushOrder :=
  { order with data := copyMemory (List.replicate 256 0) (order.data.take order.sentBytes) }

/-! ## Bitmaps -/

theorem cacheBitmap_readBack :
    CacheReadBack (updateWriteCacheBitmapOrder compressed) (updateReadCacheBitmapOrder compressed)
      CacheBitmapOrder.Sendable fun _ => CacheBitmapOrder.received compressed := by
  rintro order _ ⟨depth, filled, size⟩ res
  simp only [updateWriteCacheBitmapOrder, bind_eq_ok] at res
  obtain ⟨_, writtenId, _, writtenWidth, _, writtenHeight, _, writtenBpp,
    bitmapLength, writtenLength, _, writtenIndex, res⟩ := res
  cases res
  have header : Reads (readBitmapComprHdr compressed NO_BITMAP_COMPRESSION_HDR order.bitmapLength) []
      (replicate 8 0, order.bitmapLength) := by
    rw [readBitmapComprHdr, if_neg (fun present => absurd present.2 (by decide))]
    exact .pure _
  exact (writeUint_reads writtenId).bind ((readUint_byte 0).bind ((writeUint_reads writtenWidth).bind
    ((writeUint_reads writtenHeight).bind
    ((writeUint_reads writtenBpp).bind
    ((orderRequire_reads depth).step
    ((writeUint_reads writtenLength).bind
    ((writeUint_reads writtenIndex).bind
    (header.step
    ((readOrderBuffer_reads size filled).map _)))))))))

theorem readPersistentKey_reads (order : CacheBitmapV2Order) :
    Reads (readPersistentKey order.flags) (writePersistentKey order)
    (order.received.key1, order.received.key2) := by
  unfold readPersistentKey writePersistentKey CacheBitmapV2Order.received
  by_cases present : order.flags &&& CBR2_PERSISTENT_KEY_PRESENT ≠ 0
  · simp only [if_pos present]
    exact (readOrderKey_reads order.key1).bind ((readOrderKey_reads order.key2).map _)
  simp only [if_neg present]
  exact .pure _

theorem readBitmapHeight_reads (written : writeBitmapHeight order = .ok bytes) :
    Reads (readBitmapHeight order.flags order.bitmapWidth) bytes order.received.bitmapHeight := by
  unfold writeBitmapHeight at written
  unfold readBitmapHeight CacheBitmapV2Order.received
  by_cases same : order.flags &&& CBR2_HEIGHT_SAME_AS_WIDTH ≠ 0
  · simp only [if_pos same] at written ⊢
    cases written
    exact .pure _
  simp only [if_neg same] at written ⊢
  exact read2byteUnsigned_reads written

theorem readBitmapComprSizes_reads {compressed : Bool}
    (written : writeBitmapComprSizes compressed order = .ok bytes) :
    Reads (readBitmapComprSizes compressed order.flags order.bitmapLength) bytes
      ((order.normalised compressed).received.toBitmapComprSizes,
        (order.normalised compressed).bitmapLength) := by
  unfold writeBitmapComprSizes at written
  unfold readBitmapComprSizes CacheBitmapV2Order.received CacheBitmapV2Order.normalised
  by_cases header : HasComprHdr compressed order.flags
  · simp only [if_pos header] at written ⊢
    simp only [bind_eq_ok] at written
    obtain ⟨_, writtenFstRow, _, writtenMainBody, _, writtenScanWidth, _,
      writtenUncompressed, written⟩ := written
    cases written
    exact (writeUint_reads writtenFstRow).bind ((writeUint_reads writtenMainBody).bind
      ((writeUint_reads writtenScanWidth).bind
      ((writeUint_reads writtenUncompressed).map _)))
  simp only [if_neg header] at written ⊢
  cases written
  exact .pure _

theorem CacheBitmapV2Order.waiting_index (order : CacheBitmapV2Order) (compressed : Bool) :
    (if order.flags &&& CBR2_DO_NOT_CACHE ≠ 0 then BITMAP_CACHE_WAITING_LIST_INDEX
      else (order.normalised compressed).cacheIndex) = (order.normalised compressed).cacheIndex := by
  unfold CacheBitmapV2Order.normalised
  split
  next => rfl
  next => rfl

theorem cacheBitmapV2_readBack :
    CacheReadBack (updateWriteCacheBitmapV2Order compressed) (updateReadCacheBitmapV2Order compressed)
      (CacheBitmapV2Order.Sendable compressed) fun _ => CacheBitmapV2Order.received := by
  rintro order _ ⟨depth, filled, size⟩ res
  obtain ⟨id, known, res⟩ := bind_eq_ok.mp res
  obtain ⟨_, asserted, res⟩ := bind_eq_ok.mp res
  obtain ⟨lowId, -, few⟩ := winprAssert_ok asserted
  simp only [bind_eq_ok] at res
  obtain ⟨_, writtenWidth, _, writtenHeight, _, writtenLen, cacheIndex, writtenIdx,
    _, writtenSzs, res⟩ := res
  cases res
  obtain ⟨lt, bpp⟩ := getCbr2Bpp_reads depth known
  have wide : (id <<< 3) &&& 0xFFFF = id <<< 3 :=
    and_two_pow_sub_one_of_lt_two_pow (n := 16) (by rw [shiftLeft_eq]; omega)
  obtain ⟨idBits, bppBits, flagBits⟩ := bitmap_flags lowId lt few wide
  -- the reader looks at the flags and not at the index it has read
  have same : { (order.normalised compressed).received with
      cacheIndex := if order.flags &&& CBR2_DO_NOT_CACHE ≠ 0 then BITMAP_CACHE_WAITING_LIST_INDEX
        else (order.normalised compressed).cacheIndex } = (order.normalised compressed).received := by
    rw [order.waiting_index compressed]
    rfl
  dsimp only
  rw [← same]
  unfold updateReadCacheBitmapV2Order
  rw [idBits, bppBits, flagBits]
  exact bpp.step ((readPersistentKey_reads order).bind ((read2byteUnsigned_reads writtenWidth).bind
    ((readBitmapHeight_reads writtenHeight).bind
    ((read4byteUnsigned_reads writtenLen).bind
    ((read2byteUnsigned_reads writtenIdx).bind
    ((readBitmapComprSizes_reads writtenSzs).bind
    ((readOrderBuffer_reads size filled).map _)))))))

theorem cacheBitmapV3_readBack :
    CacheReadBack updateWriteCacheBitmapV3Order updateReadCacheBitmapV3Order CacheBitmapV3Order.Sendable
      fun _ order => order := by
  rintro order _ ⟨lowId, few, depth, dataDepth, filled, size⟩ res
  simp only [updateWriteCacheBitmapV3Order, bind_eq_ok] at res
  obtain ⟨id, known, _, writtenIdx, _, writtenBpp, _, writtenCodec, _, writtenWidth,
    _, writtenHeight, res⟩ := res
  cases res
  obtain ⟨lt, depthRd⟩ := getCbr2Bpp_reads depth known
  have wide : (id <<< 3) &&& 0x0078 = id <<< 3 := shiftLeft_field 3 lt
  obtain ⟨idBits, bppBits, flagBits⟩ := bitmap_flags lowId lt few wide
  unfold updateReadCacheBitmapV3Order
  rw [idBits, bppBits, flagBits]
  exact depthRd.step ((writeUint_reads writtenIdx).bind ((readOrderKey_reads order.key1).bind
    ((readOrderKey_reads order.key2).bind
    ((writeUint_reads writtenBpp).bind
    ((orderRequire_reads dataDepth).step
    ((@readUint_reads 2 0 (by decide)).bind
    ((writeUint_reads writtenCodec).bind
    ((writeUint_reads writtenWidth).bind
    ((writeUint_reads writtenHeight).bind
    ((readOrderKey_reads order.bitmapData.length).bind
    ((readOrderBuffer_reads size filled).map _)))))))))))

theorem readEntries_takes {n : Nat} (takes : Takes Stop.refused read n) (count : Nat) :
    Takes Stop.refused (readEntries read count) (n * count) := by
  induction count with
  | zero => exact .pure _ []
  | succ count later =>
    rw [mul_succ, add_comm (n * count) n]
    exact takes.bind fun _ => later.bind fun _ => .pure _ _

theorem readColorQuad_takes : Takes Stop.refused updateReadColorQuad 4 :=
  (readLE_takes Stop.refused 3).bind fun _ => (readLE_takes Stop.refused 1).bind fun _ => .pure _ _

theorem length_colorQuads (cols : List Nat) :
    (cols.flatMap updateWriteColorQuad).length = 3 * cols.length := by
  induction cols with
  | nil => rfl
  | cons _ cols later =>
    rw [flatMap_cons, length_append, later, updateWriteColorQuad, beBytes_length, length_cons]
    omega

theorem cacheColorTable_refused {order : CacheColorTableOrder}
    {written : OrderWritten CacheColorTableOrder}
    (res : updateWriteCacheColorTableOrder flags order = .ok written) :
    (updateReadCacheColorTableOrder written.fieldFlags).run written.bytes = .error .refused := by
  unfold updateWriteCacheColorTableOrder at res
  split at res
  next => cases res
  next num =>
    obtain ⟨_, writtenIdx, res⟩ := bind_eq_ok.mp res
    obtain ⟨_, writtenNum, res⟩ := bind_eq_ok.mp res
    cases res
    have num : order.numberColors = 256 := not_not.mp num
    have few : ((order.colorTable.take order.numberColors).flatMap updateWriteColorQuad).length <
        4 * order.numberColors := by
      have taken := length_take_le order.numberColors order.colorTable
      rw [length_colorQuads]
      omega
    have fail := (readEntries_takes readColorQuad_takes order.numberColors).fails _ few
    unfold updateReadCacheColorTableOrder
    rw [run_bind_ok ((writeUint_reads writtenIdx).takes _),
      run_bind_ok ((writeUint_reads writtenNum).takes _),
      run_bind_ok ((orderRequire_reads num).run_nil _), run_bind_error fail]

/-! ## Glyphs -/

theorem readUnicodeCharacters_reads (flags cGlyphs : Nat) :
    Reads (readUnicodeCharacters flags cGlyphs) (writeUnicodeCharacters flags cGlyphs)
    (receivedCharacters flags cGlyphs) := by
  unfold readUnicodeCharacters writeUnicodeCharacters receivedCharacters
  by_cases present : flags &&& CG_GLYPH_UNICODE_PRESENT ≠ 0
  · rw [if_pos present]
    by_cases some : cGlyphs > 0
    · rw [if_pos ⟨present, some⟩, if_pos ⟨present, some⟩]
      have zero : Reads (orderReadUint 2) (replicate 2 0) 0 := @readUint_reads 2 0 (by decide)
      have each : List.Forall₂ (Reads (orderReadUint 2)) (replicate cGlyphs (replicate 2 0))
          (replicate cGlyphs 0) := by
        clear some
        induction cGlyphs with
        | zero => exact .nil
        | succ cGlyphs later => exact .cons zero later
      have rd := readEntries_reads each
      rw [length_replicate, flatten_replicate_replicate, mul_comm] at rd
      exact rd.map _
    -- nothing is written for no glyphs
    have none : cGlyphs = 0 := Nat.eq_zero_of_not_pos some
    rw [if_neg fun both => some both.2, if_neg fun both => some both.2, none]
    exact .pure _
  · rw [if_neg present, if_neg fun both => present both.1, if_neg fun both => present both.1]
    exact .pure _

theorem orderReadInt16_reads {value : Int} (fits : checkValFitsInt16 value) :
    Reads orderReadInt16 (leBytes 2 (value % 2 ^ 16).toNat) value := by
  have rd := (@readUint_reads 2 (value % 2 ^ 16).toNat (by omega)).map (signedValue 16)
  rwa [signedValue_of_fits fits] at rd

theorem glyphPixels_reads {cx cy cb : Nat} {aj : List UInt8} (bytes : cb = glyphBytes cx cy)
    (size : aj.length = cb) :
    Reads (readBytes Stop.refused (glyphBytes cx cy)) (aj.take (glyphBytes cx cy)) aj := by
  rw [take_of_length_le (by omega)]
  exact readBytes_reads _ (size.trans bytes)

theorem readGlyphData_reads {glyph : GlyphData} (sendable : glyph.Sendable)
    (written : writeGlyphData glyph = .ok bytes) : Reads readGlyphData bytes glyph := by
  obtain ⟨_, x, y, _, _, _, _⟩ := glyph
  obtain ⟨fitsX, fitsY, pixels, size⟩ := sendable
  dsimp only at pixels size
  subst pixels
  simp only [writeGlyphData, bind_eq_ok] at written
  obtain ⟨_, writtenIdx, _, writtenWidth, _, writtenHeight, written⟩ := written
  cases written
  exact (writeUint_reads writtenIdx).bind
    ((orderReadInt16_reads fitsX).bind ((orderReadInt16_reads fitsY).bind
    ((writeUint_reads writtenWidth).bind
    ((writeUint_reads writtenHeight).bind
    ((glyphPixels_reads rfl size).map _)))))

theorem readGlyphDataV2_reads {glyph : GlyphDataV2} (sendable : glyph.Sendable)
    (written : writeGlyphDataV2 glyph = .ok bytes) : Reads readGlyphDataV2 bytes glyph := by
  obtain ⟨_, x, y, _, _, _, _⟩ := glyph
  obtain ⟨geX, geY, pixels, size⟩ := sendable
  dsimp only at pixels size
  subst pixels
  simp only [writeGlyphDataV2, bind_eq_ok] at written
  obtain ⟨_, writtenIdx, _, writtenX, _, writtenY, _, writtenWidth, _, writtenHeight, written⟩ := written
  cases written
  exact (writeUint_reads writtenIdx).bind ((read2byteSigned_reads geX writtenX).bind
    ((read2byteSigned_reads geY writtenY).bind
    ((read2byteUnsigned_reads writtenWidth).bind
    ((read2byteUnsigned_reads writtenHeight).bind
    ((glyphPixels_reads rfl size).map _)))))

theorem cacheGlyph_readBack (flags : Nat) :
    CacheReadBack (updateWriteCacheGlyphOrder flags) updateReadCacheGlyphOrder CacheGlyphOrder.Sendable
      CacheGlyphOrder.received := by
  rintro order _ ⟨num, glyphs⟩ res
  simp only [updateWriteCacheGlyphOrder, bind_eq_ok] at res
  obtain ⟨_, writtenId, _, writtenNum, _, writtenGlyphs, res⟩ := res
  cases res
  rw [take_of_length_le (le_of_eq num)] at writtenGlyphs
  have entries := writeEntries_reads (fun gl mem _ => readGlyphData_reads (glyphs gl mem)) writtenGlyphs
  rw [num] at entries
  exact (writeUint_reads writtenId).bind ((writeUint_reads writtenNum).bind (entries.bind
    ((readUnicodeCharacters_reads flags order.cGlyphs).map _)))

theorem glyph_flags {cGlyphs : Nat} (lowId : cacheId ≤ 0x0F) (few : flags ≤ 0x0F)
    (num : cGlyphs ≤ 0xFF) :
    let packed := cacheId &&& 0x000F ||| (flags &&& 0x000F) <<< 4 ||| (cGlyphs &&& 0x00FF) <<< 8
    packed &&& 0x000F = cacheId ∧ (packed &&& 0x00F0) >>> 4 = flags ∧
      (packed &&& 0xFF00) >>> 8 = cGlyphs := by
  intro packed
  have sum : packed = cacheId + flags * 2 ^ 4 + cGlyphs * 2 ^ 8 := by
    change cacheId &&& (2 ^ 4 - 1) ||| (flags &&& (2 ^ 4 - 1)) <<< 4 |||
      (cGlyphs &&& (2 ^ 8 - 1)) <<< 8 = _
    rw [and_two_pow_sub_one_of_lt_two_pow (by omega), and_two_pow_sub_one_of_lt_two_pow (by omega),
      and_two_pow_sub_one_of_lt_two_pow (by omega), @or_shiftLeft_eq 4 cacheId flags (by omega),
      or_shiftLeft_eq cGlyphs (by omega)]
  rw [sum, show (0x00F0 : Nat) = (2 ^ 4 - 1) <<< 4 from rfl,
    show (0xFF00 : Nat) = (2 ^ 8 - 1) <<< 8 from rfl,
    shiftRight_field, shiftRight_field, show (0x000F : Nat) = 2 ^ 4 - 1 from rfl,
      and_two_pow_sub_one_eq_mod]
  omega

theorem cacheGlyphV2_readBack :
    CacheReadBack updateWriteCacheGlyphV2Order updateReadCacheGlyphV2Order CacheGlyphV2Order.Sendable
      CacheGlyphV2Order.received := by
  rintro order _ ⟨num, glyphs⟩ res
  obtain ⟨_, asserted, res⟩ := bind_eq_ok.mp res
  obtain ⟨lowId, few, fits⟩ := winprAssert_ok asserted
  obtain ⟨_, writtenGlyphs, res⟩ := bind_eq_ok.mp res
  cases res
  rw [take_of_length_le (le_of_eq num)] at writtenGlyphs
  have entries :=
    writeEntries_reads (fun gl mem _ => readGlyphDataV2_reads (glyphs gl mem)) writtenGlyphs
  rw [num] at entries
  obtain ⟨idBits, flagBits, numBits⟩ := glyph_flags lowId few fits
  unfold updateReadCacheGlyphV2Order
  rw [idBits, flagBits, numBits]
  exact entries.bind ((readUnicodeCharacters_reads _ order.cGlyphs).map _)

/-! ## Brushes -/

theorem flatten_rows (data : List UInt8) (scanline n : Nat) :
    ((range n).map fun row => (data.drop (row * scanline)).take scanline).flatten = data.take
    (n * scanline) := by
  induction n with
  | zero => rw [zero_mul, take_zero]; rfl
  | succ n pre =>
    rw [range_succ, map_append, flatten_append, pre, succ_mul, take_add]
    simp

theorem readBrushRows_reads (inside : 8 * scanline ≤ data.length) :
    Reads (readBrushRows scanline) (writeBrushRows scanline data) (data.take (8 * scanline)) := by
  have all : ∀ piece ∈ (range 8).reverse.map fun row => (data.drop (row * scanline)).take scanline,
      Reads (readBytes Stop.refused scanline) piece piece := by
    intro piece mem
    obtain ⟨row, lo, rfl⟩ := mem_map.mp mem
    have lo : row + 1 ≤ 8 := mem_range.mp (mem_reverse.mp lo)
    have fits : row * scanline + scanline ≤ 8 * scanline := by
      rw [← succ_mul]
      exact Nat.mul_le_mul_right scanline lo
    apply readBytes_reads
    rw [length_take, length_drop]
    omega
  have rd := (readEntries_reads (forall₂_same.mpr all)).map fun rows => rows.reverse.flatten
  rw [← map_reverse, reverse_reverse, flatten_rows, length_map, length_reverse, length_range] at rd
  exact rd

theorem getBmfBpp_of_getBppBmf (known : getBppBmf bpp = .ok id) :
    getBmfBpp id = some bpp ∧ id < 256 ∧ bpp ≤ 32 ∧ (id = 5 → bpp = 24) := by
  unfold getBppBmf at known
  split at known
  case h_6 => cases known
  all_goals
    cases known
    decide

theorem brushCompressed_cases (compressed : brushCompressed id length = true) :
    brushCompressedToWrite id length = true ∨ id = 5 ∧ length = 28 := by
  simp only [brushCompressed, brushCompressedToWrite, mem_cons, Prod.mk.injEq, not_mem_nil, or_false,
    decide_eq_true_eq] at compressed ⊢
  omega

theorem readBrushOfSize_reads {order : CacheBrushOrder} (sendable : order.Sendable)
    (known : getBppBmf order.bpp = .ok id) (written : writeBrushOfSize id order = .ok bytes) :
    Reads (readBrushOfSize order.cx order.cy id order.bpp order.length) bytes order.received.data := by
  obtain ⟨_, plain⟩ := sendable
  obtain ⟨-, -, _, deep⟩ := getBmfBpp_of_getBppBmf known
  unfold writeBrushOfSize at written
  unfold readBrushOfSize CacheBrushOrder.received CacheBrushOrder.sentBytes
  by_cases square : order.cx = 8 ∧ order.cy = 8
  · simp only [if_pos square] at written ⊢
    unfold writeBrushPixels at written
    unfold readBrushPixels
    by_cases mono : order.bpp = 1
    · simp only [if_pos mono] at written ⊢
      split at written
      next => cases written
      next eight =>
        cases written
        exact (orderRequire_reads (not_not.mp eight)).step ((readBrushRows_reads (by omega)).map _)
    simp only [if_neg mono] at written ⊢
    split at written
    next => cases written
    next writable =>
      cases written
      have uncompressed : ¬brushCompressed id order.length = true := by
        intro compressed
        cases brushCompressed_cases compressed with
        | inl rejected => exact writable rejected
        | inr packed => exact plain ⟨square.1, square.2, deep packed.1, packed.2⟩
      rw [if_neg uncompressed, mul_comm (order.bpp / 8) 8]
      exact (readBrushRows_reads (by omega)).map _
  · simp only [if_neg square] at written ⊢
    cases written
    exact .pure _

theorem cacheBrush_readBack (flags : Nat) :
    CacheReadBack (updateWriteCacheBrushOrder flags) updateReadCacheBrushOrder CacheBrushOrder.Sendable
      fun _ => CacheBrushOrder.received := by
  rintro order _ sendable res
  simp only [updateWriteCacheBrushOrder, bind_eq_ok] at res
  obtain ⟨id, known, _, writtenIdx, _, writtenCx, _, writtenCy, _, writtenStyle,
    _, writtenLen, _, writtenPixels, res⟩ := res
  cases res
  obtain ⟨depth, lt, -, -⟩ := getBmfBpp_of_getBppBmf known
  have fmt : Reads (readBmfBpp id) [] order.bpp := by
    rw [readBmfBpp, depth]
    exact .pure _
  exact (writeUint_reads writtenIdx).bind
    ((readUint_ofNat lt).bind (fmt.step ((writeUint_reads writtenCx).bind
    ((writeUint_reads writtenCy).bind
    ((writeUint_reads writtenStyle).bind
    ((writeUint_reads writtenLen).bind
    ((readBrushOfSize_reads sendable known writtenPixels).map _)))))))

theorem length_writeBrushRows (inside : 8 * scanline ≤ data.length) :
    (writeBrushRows scanline data).length = 8 * scanline := by
  have rows := congrArg length (flatten_rows data scanline 8)
  rw [length_take_of_le inside, length_flatten] at rows
  rw [writeBrushRows, length_flatten, map_reverse, map_reverse, sum_reverse, rows]

theorem decompressBrush_run {bytes : List UInt8} (room : (4 + (bpp + 1) / 8) * 4 ≤ bytes.length) :
    ∃ output, (updateDecompressBrush bpp).run bytes = .ok (output, bytes.drop 14) :=
  ⟨_, if_pos room⟩

/-- The rows of a brush of 24 bits with the length of a compressed one are not taken off the
stream: the reader leaves all of them but 14 bytes. -/
theorem cacheBrush_misread {order : CacheBrushOrder} {written : OrderWritten CacheBrushOrder}
    (size : order.data.length = 256) (square : order.cx = 8 ∧ order.cy = 8) (depth : order.bpp = 24)
    (long : order.length = 28) (res : updateWriteCacheBrushOrder flags order = .ok written) :
    ∃ received rest, (updateReadCacheBrushOrder written.fieldFlags).run written.bytes =
    .ok (received, rest) ∧ rest.length = 178 := by
  simp only [updateWriteCacheBrushOrder, bind_eq_ok] at res
  obtain ⟨_, known, idx, writtenIdx, cx, writtenCx, cy, writtenCy, style,
    writtenStyle, length, writtenLen, _, writtenPixels, res⟩ := res
  cases res
  rw [depth] at known
  cases known
  rw [writeBrushOfSize, if_pos square, writeBrushPixels, depth, long] at writtenPixels
  cases writtenPixels
  have rows : (writeBrushRows (8 * (24 / 8)) order.data).length = 192 := length_writeBrushRows (by omega)
  -- the reader decompresses the rows
  obtain ⟨out, decomp⟩ := @decompressBrush_run 24 (writeBrushRows (8 * (24 / 8)) order.data) (by omega)
  have misread : readBrushOfSize order.cx order.cy 5 24 order.length = updateDecompressBrush 24 := by
    rw [readBrushOfSize, if_pos square, long]
    rfl
  rw [← misread] at decomp
  have fmt : Reads (readBmfBpp 5) [] 24 := .pure 24
  have read :
    (updateReadCacheBrushOrder flags).run (idx ++ ([UInt8.ofNat 5] ++ (cx ++ (cy ++ (style ++ (length ++
      writeBrushRows (8 * (24 / 8)) order.data)))))) =
      .ok (⟨order.index, 24, order.cx, order.cy, order.style, order.length, out⟩,
        (writeBrushRows (8 * (24 / 8)) order.data).drop 14) := by
    unfold updateReadCacheBrushOrder
    rw [run_bind_ok ((writeUint_reads writtenIdx).takes _),
      run_bind_ok ((@readUint_ofNat 5 (by decide)).takes _), run_bind_ok (fmt.run_nil _),
      run_bind_ok ((writeUint_reads writtenCx).takes _),
        run_bind_ok ((writeUint_reads writtenCy).takes _),
      run_bind_ok ((writeUint_reads writtenStyle).takes _),
      run_bind_ok ((writeUint_reads writtenLen).takes _), run_bind_ok decomp]
    rfl
  refine ⟨_, _, read, ?_⟩
  rw [length_drop, rows]

/-- Every bitmap, glyph and brush order that can be sent is read back, and no colour table is. -/
theorem secondary_orders_read_back :
    (∀ compressed, CacheReadBack (updateWriteCacheBitmapOrder compressed)
      (updateReadCacheBitmapOrder compressed)
      CacheBitmapOrder.Sendable fun _ => CacheBitmapOrder.received compressed) ∧
    (∀ compressed, CacheReadBack (updateWriteCacheBitmapV2Order compressed)
      (updateReadCacheBitmapV2Order compressed)
      (CacheBitmapV2Order.Sendable compressed) fun _ => CacheBitmapV2Order.received) ∧
    (CacheReadBack updateWriteCacheBitmapV3Order updateReadCacheBitmapV3Order CacheBitmapV3Order.Sendable
      fun _ order => order) ∧
    (∀ flags order written, updateWriteCacheColorTableOrder flags order = .ok written →
      (updateReadCacheColorTableOrder written.fieldFlags).run written.bytes = .error .refused) ∧
    (∀ flags, CacheReadBack
      (updateWriteCacheGlyphOrder flags) updateReadCacheGlyphOrder CacheGlyphOrder.Sendable
      CacheGlyphOrder.received) ∧
    (CacheReadBack updateWriteCacheGlyphV2Order updateReadCacheGlyphV2Order CacheGlyphV2Order.Sendable
      CacheGlyphV2Order.received) ∧ ∀ flags, CacheReadBack
    (updateWriteCacheBrushOrder flags) updateReadCacheBrushOrder CacheBrushOrder.Sendable
      fun _ => CacheBrushOrder.received :=
  ⟨cacheBitmap_readBack, cacheBitmapV2_readBack, cacheBitmapV3_readBack,
    fun _ _ _ => cacheColorTable_refused,
    cacheGlyph_readBack, cacheGlyphV2_readBack, cacheBrush_readBack⟩

/-- A compressed bitmap with a header and keys comes back as it is. -/
theorem secondary_orders_read_back_header : ∃ written, updateWriteCacheBitmapV2Order true
        { cacheId := 3, flags := 2, key1 := 7, key2 := 8, bitmapBpp := 32, bitmapWidth := 300, bitmapHeight := 2,
          bitmapLength := 20, cacheIndex := 0x7F, cbCompMainBodySize := 2, cbScanWidth := 4,
          bitmapDataStream := [1, 2] } = .ok written ∧
      Reads (updateReadCacheBitmapV2Order true written.fieldFlags) written.bytes
        { cacheId := 3, flags := 2, key1 := 7, key2 := 8, bitmapBpp := 32, bitmapWidth := 300, bitmapHeight := 2,
          bitmapLength := 2, cacheIndex := 0x7F, cbCompMainBodySize := 2, cbScanWidth := 4,
          compressed := true, bitmapDataStream := [1, 2] } :=
  ⟨_, rfl, secondary_orders_read_back.2.1 true
    { cacheId := 3, flags := 2, key1 := 7, key2 := 8, bitmapBpp := 32, bitmapWidth := 300, bitmapHeight := 2,
      bitmapLength := 20, cacheIndex := 0x7F, cbCompMainBodySize := 2, cbScanWidth := 4,
      bitmapDataStream := [1, 2] }
    _ ⟨by decide, by decide, by decide⟩ rfl⟩

def writeThenRead {α : Type} (write : α → Except Stop (OrderWritten α))
    (read : Nat → OrderReader α) (order : α) :
    Except Stop (Except Stop (α × List UInt8)) :=
  (write order).map fun written => (read written.fieldFlags).run written.bytes

/-- What is not read back: the header of a bitmap in version 1; keys, height and sizes without
their flags in version 2; an id above 3 and more than nine bits of flags in version 3; bitmaps
without data or with an unknown depth; colour tables; the characters and the length of a glyph; a
brush that has not eight by eight pixels, or 24 bits and the length 28. -/
theorem secondary_orders_not_read_back :
    (writeThenRead (updateWriteCacheBitmapOrder true) (updateReadCacheBitmapOrder true)
      { bitmapBpp := 8, bitmapLength := 1, bitmapComprHdr := List.replicate 8 1, bitmapDataStream := [0] } =
        .ok (.ok ({ bitmapBpp := 8, bitmapLength := 1, compressed := true, bitmapDataStream := [0] }, [])) ∧
    writeThenRead (updateWriteCacheBitmapOrder false) (updateReadCacheBitmapOrder false)
      { bitmapBpp := 33, bitmapLength := 1, bitmapDataStream := [0] } = .ok (.error .refused) ∧
    writeThenRead (updateWriteCacheBitmapOrder false) (updateReadCacheBitmapOrder false)
      { bitmapBpp := 0, bitmapLength := 1, bitmapDataStream := [0] } = .ok (.error .refused) ∧
    writeThenRead (updateWriteCacheBitmapOrder false) (updateReadCacheBitmapOrder false)
      { bitmapBpp := 8 } =
      .ok (.error .refused)) ∧
    (writeThenRead (updateWriteCacheBitmapV2Order false) (updateReadCacheBitmapV2Order false)
      { flags := 1, key1 := 1, key2 := 1, bitmapBpp := 8, bitmapWidth := 1, bitmapHeight := 2, bitmapLength := 1,
        cbScanWidth := 1, bitmapDataStream := [0] } =
        .ok (.ok ({ flags := 1, bitmapBpp := 8, bitmapWidth := 1, bitmapHeight := 1, bitmapLength := 1,
                    bitmapDataStream := [0] }, [])) ∧
    writeThenRead (updateWriteCacheBitmapV2Order false) (updateReadCacheBitmapV2Order false)
      { bitmapBpp := 1, bitmapLength := 1, bitmapDataStream := [0] } = .ok (.error .refused) ∧
    writeThenRead (updateWriteCacheBitmapV2Order false) (updateReadCacheBitmapV2Order false)
      { bitmapBpp := 8 } =
      .ok (.error .refused)) ∧
    (writeThenRead updateWriteCacheBitmapV3Order updateReadCacheBitmapV3Order
      { cacheId := 4, flags := 0x200, bpp := 8, bitmapData := { bpp := 8, length := 1, data := [0] } } =
        .ok (.ok ({ bpp := 8, bitmapData := { bpp := 8, length := 1, data := [0] } }, [])) ∧
    writeThenRead updateWriteCacheBitmapV3Order updateReadCacheBitmapV3Order
      { bpp := 1, bitmapData := { bpp := 8, length := 1, data := [0] } } = .ok (.error .refused) ∧
    writeThenRead updateWriteCacheBitmapV3Order updateReadCacheBitmapV3Order
      { bpp := 8, bitmapData := { bpp := 0, length := 1, data := [0] } } = .ok (.error .refused) ∧
    writeThenRead updateWriteCacheBitmapV3Order updateReadCacheBitmapV3Order
      { bpp := 8, bitmapData := { bpp := 33, length := 1, data := [0] } } = .ok (.error .refused) ∧
    writeThenRead updateWriteCacheBitmapV3Order updateReadCacheBitmapV3Order
      { bpp := 8, bitmapData := { bpp := 8 } } =
      .ok (.error .refused)) ∧
    (∃ written, updateWriteCacheColorTableOrder 0 { numberColors := 256 } = .ok written ∧
      (updateReadCacheColorTableOrder written.fieldFlags).run written.bytes = .error .refused) ∧
    (writeThenRead (updateWriteCacheGlyphOrder 0x10) updateReadCacheGlyphOrder
      { cGlyphs := 1, glyphData := [{ cb := 1 }], unicodeCharacters := some [65] } =
        .ok (.ok ({ cGlyphs := 1, glyphData := [{}], unicodeCharacters := some [0] }, []))) ∧
    (writeThenRead updateWriteCacheGlyphV2Order updateReadCacheGlyphV2Order
      { flags := 1, cGlyphs := 1, glyphData := [{ x := -2 ^ 31, cb := 1 }], unicodeCharacters := some [65] } =
        .ok (.ok ({ flags := 1, cGlyphs := 1, glyphData := [{}], unicodeCharacters := some [0] }, []))) ∧
    writeThenRead (updateWriteCacheBrushOrder 0) updateReadCacheBrushOrder
      { bpp := 8, data := List.replicate 256 1 } = .ok (.ok ({ bpp := 8 }, [])) ∧
    ∃ written, updateWriteCacheBrushOrder 0 { bpp := 24, cx := 8, cy := 8, length := 28 } = .ok written ∧
      ∃ received rest,
        (updateReadCacheBrushOrder written.fieldFlags).run written.bytes = .ok (received, rest) ∧
        rest.length = 178 := by
  obtain ⟨table, tableWritten⟩ :=
    @exists_ok _ (updateWriteCacheColorTableOrder 0 { numberColors := 256 }) rfl
  obtain ⟨brush, brushWritten⟩ :=
    @exists_ok _ (updateWriteCacheBrushOrder 0 { bpp := 24, cx := 8, cy := 8, length := 28 }) rfl
  have misread := cacheBrush_misread List.length_replicate ⟨rfl, rfl⟩ rfl rfl brushWritten
  exact ⟨⟨rfl, rfl, rfl, rfl⟩, ⟨rfl, rfl, rfl⟩, ⟨rfl, rfl, rfl, rfl, rfl⟩,
    ⟨table, tableWritten, cacheColorTable_refused tableWritten⟩, by decide +kernel, rfl, rfl,
    brush, brushWritten, misread⟩

end KvmServer.Core
