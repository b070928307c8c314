import KvmServer.Codec.Zgfx
import KvmServer.Lib.Session

/-! # Round trip of RDP 8.0 messages

The compressor copies its input into raw segments.  Whatever the history of the decompressor holds, a raw
segment is its own output, so every message comes back from every state. -/

namespace KvmServer.Codec
open Lib Winpr List

/-! ## What the compressor writes -/

def segmentBytes (header : UInt8) (chunk : List UInt8) : List UInt8 :=
  leBytes 4 (chunk.length + 1) ++ header :: chunk

def segmentsBytes (header : UInt8) (data : List UInt8) : List UInt8 :=
  if data.length = 0 then []
  else
    segmentBytes header (data.take ZGFX_SEGMENTED_MAXSIZE) ++
      segmentsBytes header (data.drop ZGFX_SEGMENTED_MAXSIZE)
termination_by data.length
decreasing_by
  rw [List.length_drop]
  unfold ZGFX_SEGMENTED_MAXSIZE
  omega

def segmentCount (length : Nat) : Nat := (length + 65534) / 65535

@[simp] theorem segmentBytes_length (header : UInt8) (chunk : List UInt8) :
    (segmentBytes header chunk).length = chunk.length + 5 := by
  simp [segmentBytes]
  omega

theorem segmentsBytes_nil (header : UInt8) : segmentsBytes header [] = [] := by
  rw [segmentsBytes, if_pos length_nil]

theorem segmentsBytes_step (header : UInt8) {data : List UInt8} (ne : data.length ≠ 0) :
    segmentsBytes header data = segmentBytes header (data.take ZGFX_SEGMENTED_MAXSIZE) ++
        segmentsBytes header (data.drop ZGFX_SEGMENTED_MAXSIZE) := by
  rw [segmentsBytes, if_neg ne]

theorem segmentCount_step {len : Nat} (ne : len ≠ 0) :
    segmentCount len = segmentCount (len - ZGFX_SEGMENTED_MAXSIZE) + 1 := by
  unfold segmentCount ZGFX_SEGMENTED_MAXSIZE
  omega

theorem segments_induction {motive : List UInt8 → Prop} (nil : motive [])
    (step : ∀ data : List UInt8, data.length ≠ 0 → motive (data.drop ZGFX_SEGMENTED_MAXSIZE) →
      motive data) (data : List UInt8) : motive data := by
  by_cases ne : data.length = 0
  · rw [eq_nil_of_length_eq_zero ne]
    exact nil
  · exact step data ne (segments_induction nil step (data.drop ZGFX_SEGMENTED_MAXSIZE))
termination_by data.length
decreasing_by
  rw [List.length_drop]
  unfold ZGFX_SEGMENTED_MAXSIZE
  omega

theorem segmentsBytes_length (header : UInt8) (data : List UInt8) :
    (segmentsBytes header data).length = data.length + 5 * segmentCount data.length := by
  induction data using segments_induction with
  | nil => simp [segmentsBytes_nil, segmentCount]
  | step data ne ih =>
    rw [segmentsBytes_step header ne, length_append, segmentBytes_length, ih,
      length_drop, length_take, segmentCount_step ne, ZGFX_SEGMENTED_MAXSIZE]
    omega

def RawFlags (flags : Nat) : Prop := flags < 256 ∧ flags &&& 0x20 = 0

instance (flags : Nat) : Decidable (RawFlags flags) := inferInstanceAs (Decidable (_ ∧ _))

def segmentHeader (flags : Nat) : UInt8 := .ofNat (flags ||| 0x04)

variable {flags tot : Nat} {message chunk bytes : List UInt8} {size n : Nat} (zgfx : ZgfxContext)

theorem RawFlags.fits (raw : RawFlags flags) : flags ||| 0x04 < 2 ^ 8 :=
  Nat.or_lt_two_pow raw.1 (by decide)

theorem RawFlags.header (raw : RawFlags flags) : segmentHeader flags &&& 0x20 = 0 := by
  apply UInt8.toNat_inj.mp
  rw [UInt8.toNat_and, segmentHeader, UInt8.toNat_ofNat', Nat.mod_eq_of_lt raw.fits]
  change (flags ||| 4) &&& 32 = 0
  rw [Nat.and_or_distrib_right, raw.2]
  rfl

theorem writeAt_patch (front old new back : List UInt8) (same : old.length = new.length) :
    writeAt (front ++ old ++ back) front.length new = front ++ new ++ back := by
  have kept : (front ++ old ++ back).take front.length = front := by
    rw [append_assoc, take_left]
  have rest : (front ++ old ++ back).drop (front.length + new.length) = back := by
    rw [← same, ← length_append, drop_left]
  rw [writeAt, kept, rest]

theorem zgfxCompressSegment_raw (raw : RawFlags flags) (written data : List UInt8) :
    zgfxCompressSegment written data flags =
    .ok (written ++ segmentHeader flags :: data, flags ||| 0x04) := by
  rw [zgfxCompressSegment, assertingCast, if_pos raw.fits]
  rfl

theorem zgfxSegmentOut_sized {out : ZgfxOut} (raw : RawFlags out.flags) {chunk : List UInt8}
    (le : chunk.length ≤ ZGFX_SEGMENTED_MAXSIZE) :
    zgfxSegmentOut true chunk out = .ok { out with
        written := out.written ++ segmentBytes (segmentHeader out.flags) chunk
        flags := out.flags ||| 0x04
        fragment := out.fragment + 1 } := by
  have size : (out.written ++ [0, 0, 0, 0] ++ segmentHeader out.flags :: chunk).length -
      (out.written ++ [0, 0, 0, 0]).length = chunk.length + 1 := by
    rw [length_append, length_cons, Nat.add_sub_cancel_left]
  have fits : ¬(True ∧ chunk.length + 1 > 2 ^ 32 - 1) := by
    unfold ZGFX_SEGMENTED_MAXSIZE at le
    omega
  have patched := writeAt_patch out.written [0, 0, 0, 0] (leBytes 4 (chunk.length + 1))
    (segmentHeader out.flags :: chunk) (by simp)
  rw [zgfxSegmentOut]
  simp only [if_true, zgfxCompressSegment_raw raw, Bind.bind, Except.bind]
  rw [size, if_neg fits, patched, append_assoc]
  rfl

theorem zgfxSegmentOut_unsized {out : ZgfxOut} (raw : RawFlags out.flags) (chunk : List UInt8) :
    zgfxSegmentOut false chunk out = .ok { out with
        written := out.written ++ segmentHeader out.flags :: chunk
        flags := out.flags ||| 0x04
        fragment := out.fragment + 1 } := by
  simp [zgfxSegmentOut, zgfxCompressSegment_raw raw, Bind.bind, Except.bind, Pure.pure, Except.pure]

theorem RawFlags.next (raw : RawFlags flags) : RawFlags (flags ||| 0x04) := by
  refine ⟨raw.fits, ?_⟩
  rw [Nat.and_or_distrib_right, raw.2]
  rfl

theorem segmentHeader_next (flags : Nat) : segmentHeader (flags ||| 0x04) = segmentHeader flags := by
  rw [segmentHeader, Nat.or_assoc, Nat.or_self, segmentHeader]

theorem zgfxFragment_next {out : ZgfxOut} (later : 0 < out.fragment) (tot left : Nat)
    (chunk : List UInt8) :
    zgfxFragment tot left chunk out = zgfxSegmentOut true chunk out := by
  rw [zgfxFragment, if_neg (by omega), decide_eq_true later, Bool.true_or]

theorem zgfxFragments_next (tot : Nat) (data : List UInt8) {out : ZgfxOut} (raw : RawFlags out.flags)
    (later : 0 < out.fragment) (ne : data.length ≠ 0) :
    ∃ flags, zgfxFragments tot data out = .ok { out with
        written := out.written ++ segmentsBytes (segmentHeader out.flags) data
        flags := flags
        fragment := out.fragment + segmentCount data.length } := by
  induction data using segments_induction generalizing out with
  | nil => exact absurd rfl ne
  | step data ne ih =>
    have le : (data.take ZGFX_SEGMENTED_MAXSIZE).length ≤ ZGFX_SEGMENTED_MAXSIZE := by
      rw [length_take]
      exact min_le_left _ _
    rw [zgfxFragments, zgfxFragment_next later, zgfxSegmentOut_sized raw le,
      segmentsBytes_step _ ne, segmentCount_step ne]
    simp only [Bind.bind, Except.bind]
    by_cases more : data.length > ZGFX_SEGMENTED_MAXSIZE
    · rw [if_pos more]
      have left : (data.drop ZGFX_SEGMENTED_MAXSIZE).length ≠ 0 := by
        rw [length_drop]
        omega
      obtain ⟨flags, rest⟩ := @ih { out with
          written :=
            out.written ++ segmentBytes (segmentHeader out.flags) (data.take ZGFX_SEGMENTED_MAXSIZE)
          flags := out.flags ||| 0x04
          fragment := out.fragment + 1 } raw.next (Nat.succ_pos _) left
      refine ⟨flags, rest.trans ?_⟩
      rw [segmentHeader_next, append_assoc, length_drop, add_assoc, add_comm 1]
    rw [if_neg more]
    have none : data.drop ZGFX_SEGMENTED_MAXSIZE = [] := drop_eq_nil_of_le (by omega)
    have last : data.length - ZGFX_SEGMENTED_MAXSIZE = 0 := by omega
    refine ⟨out.flags ||| 0x04, ?_⟩
    rw [none, segmentsBytes_nil, append_nil, last]
    rfl

def encoding (flags : Nat) (message : List UInt8) : List UInt8 :=
  if message.length ≤ ZGFX_SEGMENTED_MAXSIZE then ZGFX_SEGMENTED_SINGLE :: segmentHeader flags :: message
  else
    ZGFX_SEGMENTED_MULTIPART :: (leBytes 2 (segmentCount message.length) ++ leBytes 4 message.length ++
      segmentsBytes (segmentHeader flags) message)

def Countable (message : List UInt8) : Prop := segmentCount message.length < 2 ^ 16

section
variable (raw : RawFlags flags)
include raw

section
variable (sDst : List UInt8)
include sDst

theorem compressToStream_single (le : message.length ≤ ZGFX_SEGMENTED_MAXSIZE) :
    zgfxCompressToStream sDst message flags =
      .ok (sDst ++ ZGFX_SEGMENTED_SINGLE :: segmentHeader flags :: message) := by
  have fst :
      zgfxFragment message.length (message.length - ZGFX_SEGMENTED_MAXSIZE) message ⟨sDst, flags, 0, 0⟩ =
        .ok ⟨sDst ++ [ZGFX_SEGMENTED_SINGLE] ++ segmentHeader flags :: message,
          flags ||| 0x04, 1, 0⟩ := by
    rw [zgfxFragment, if_pos rfl, Nat.sub_eq_zero_of_le le]
    exact @zgfxSegmentOut_unsized ⟨sDst ++ [ZGFX_SEGMENTED_SINGLE], flags, 0, 0⟩ raw message
  rw [zgfxCompressToStream, zgfxFragments, take_of_length_le le, fst]
  simp [Bind.bind, Except.bind, Pure.pure, Except.pure, not_lt.mpr le, zgfxFillSegmentCount]

theorem zgfxFragment_first (big : message.length > ZGFX_SEGMENTED_MAXSIZE) :
    zgfxFragment message.length (message.length - ZGFX_SEGMENTED_MAXSIZE)
    (message.take ZGFX_SEGMENTED_MAXSIZE) ⟨sDst, flags, 0, 0⟩ =
        .ok ⟨sDst ++ [ZGFX_SEGMENTED_MULTIPART] ++ [0, 0] ++ leBytes 4 message.length ++
        segmentBytes (segmentHeader flags) (message.take ZGFX_SEGMENTED_MAXSIZE), flags ||| 0x04, 1,
        (sDst ++ [ZGFX_SEGMENTED_MULTIPART]).length⟩ := by
  have multipart : decide (message.length - ZGFX_SEGMENTED_MAXSIZE > 0) = true :=
    decide_eq_true (Nat.sub_pos_of_lt big)
  have le : (message.take ZGFX_SEGMENTED_MAXSIZE).length ≤ ZGFX_SEGMENTED_MAXSIZE := by
    rw [length_take]
    exact min_le_left _ _
  rw [zgfxFragment, if_pos rfl, multipart, Bool.or_true]
  exact @zgfxSegmentOut_sized (zgfxDescriptor message.length true ⟨sDst, flags, 0, 0⟩) raw _ le

theorem compressToStream_multipart (big : message.length > ZGFX_SEGMENTED_MAXSIZE)
    (countable : Countable message) :
    zgfxCompressToStream sDst message flags =
    .ok (sDst ++ ZGFX_SEGMENTED_MULTIPART :: (leBytes 2 (segmentCount message.length) ++
        leBytes 4 message.length ++ segmentsBytes (segmentHeader flags) message)) := by
  have ne : message.length ≠ 0 := by omega
  have cnt : segmentCount message.length < 2 ^ 16 := countable
  have left : (message.drop ZGFX_SEGMENTED_MAXSIZE).length ≠ 0 := by
    rw [length_drop]
    omega
  obtain ⟨flags', rest⟩ := @zgfxFragments_next message.length (message.drop ZGFX_SEGMENTED_MAXSIZE)
    ⟨sDst ++ [ZGFX_SEGMENTED_MULTIPART] ++ [0, 0] ++ leBytes 4 message.length ++
      segmentBytes (segmentHeader flags) (message.take ZGFX_SEGMENTED_MAXSIZE), flags ||| 0x04, 1,
      (sDst ++ [ZGFX_SEGMENTED_MULTIPART]).length⟩ raw.next Nat.one_pos left
  have count :
      1 + segmentCount (message.drop ZGFX_SEGMENTED_MAXSIZE).length = segmentCount message.length := by
    rw [length_drop, segmentCount_step ne, add_comm]
  have position : (sDst ++ [ZGFX_SEGMENTED_MULTIPART]).length ≠ 0 := by simp
  have patched :=
    writeAt_patch (sDst ++ [ZGFX_SEGMENTED_MULTIPART]) [0, 0] (leBytes 2 (segmentCount message.length))
    (leBytes 4 message.length ++ segmentsBytes (segmentHeader flags) message) (by simp)
  have written : sDst ++ [ZGFX_SEGMENTED_MULTIPART] ++ [0, 0] ++ leBytes 4 message.length ++
      segmentBytes (segmentHeader flags) (message.take ZGFX_SEGMENTED_MAXSIZE) ++
      segmentsBytes (segmentHeader flags) (message.drop ZGFX_SEGMENTED_MAXSIZE) =
        sDst ++ [ZGFX_SEGMENTED_MULTIPART] ++ [0, 0] ++
          (leBytes 4 message.length ++ segmentsBytes (segmentHeader flags) message) := by
    rw [segmentsBytes_step _ ne]
    simp only [append_assoc]
  have filled : zgfxFillSegmentCount ⟨sDst ++ [ZGFX_SEGMENTED_MULTIPART] ++ [0, 0] ++
      (leBytes 4 message.length ++ segmentsBytes (segmentHeader flags) message), flags',
      segmentCount message.length, (sDst ++ [ZGFX_SEGMENTED_MULTIPART]).length⟩ =
        .ok (sDst ++ [ZGFX_SEGMENTED_MULTIPART] ++ leBytes 2 (segmentCount message.length) ++
          (leBytes 4 message.length ++ segmentsBytes (segmentHeader flags) message)) := by
    rw [zgfxFillSegmentCount, if_pos position, assertingCast, if_pos cnt, ← patched]
    rfl
  rw [zgfxCompressToStream, zgfxFragments, zgfxFragment_first raw sDst big]
  simp only [Bind.bind, Except.bind, if_pos big, rest, count, segmentHeader_next, written, filled]
  simp only [append_assoc, cons_append, nil_append]

theorem compressToStream_eq (countable : Countable message) :
    zgfxCompressToStream sDst message flags = .ok (sDst ++ encoding flags message) := by
  unfold encoding
  split
  next lt => exact compressToStream_single raw sDst lt
  next big => exact compressToStream_multipart raw sDst (not_le.mp big) countable

end

end

/-! ## What the decompressor makes of it -/

theorem streamReadLE_leBytes (n : Nat) {x : Nat} (fits : x < 2 ^ (8 * n)) (rest : List UInt8) :
    streamReadLE n (leBytes n x ++ rest) = some (x, rest) := by
  rw [streamReadLE, if_pos (by simp), take_left' (leBytes_length n x), leValue_leBytes_of_lt fits,
    drop_left' (leBytes_length n x)]

variable {header : UInt8}

theorem zgfxDecompressSegment_raw (raw : header &&& 0x20 = 0) (ne : chunk.length ≠ 0)
    (le : chunk.length ≤ ZGFX_SEGMENTED_MAXSIZE) (rest : List UInt8) :
    ∃ zgfx', zgfxDecompressSegment zgfx (header :: chunk ++ rest)
    (chunk.length + 1) = (zgfx', some rest) ∧ zgfx'.outputBuffer = chunk := by
  unfold ZGFX_SEGMENTED_MAXSIZE at le
  have enough : ¬(header :: (chunk ++ rest)).length < chunk.length + 1 := by simp
  have room : ¬chunk.length > zgfxOutputSize := by
    unfold zgfxOutputSize
    omega
  have two : ¬chunk.length + 1 < 2 := by omega
  rw [cons_append]
  simp only [zgfxDecompressSegment, if_neg two, if_neg enough, raw, if_true,
    Nat.add_sub_cancel, take_left, drop_left, if_neg room]
  exact ⟨_, rfl, rfl⟩

theorem zgfxSegments_step (raw : header &&& 0x20 = 0) (ne : chunk.length ≠ 0)
    (le : chunk.length ≤ ZGFX_SEGMENTED_MAXSIZE) (rest joined : List UInt8) (fits : tot < 2 ^ 32)
    (room : joined.length + chunk.length ≤ tot) (segs : Nat) :
    ∃ zgfx', zgfxSegments tot (segs + 1) zgfx (segmentBytes header chunk ++ rest) joined =
      zgfxSegments tot segs zgfx' rest (joined ++ chunk) := by
  obtain ⟨zgfx', seg, out⟩ := zgfxDecompressSegment_raw zgfx raw ne le rest
  have size : chunk.length + 1 < 2 ^ (8 * 4) := by
    unfold ZGFX_SEGMENTED_MAXSIZE at le
    omega
  have app : zgfxAppend zgfx' joined tot = some (joined ++ chunk) := by
    rw [zgfxAppend, out, if_neg (by omega), if_neg (by omega)]
  refine ⟨zgfx', ?_⟩
  rw [zgfxSegments, segmentBytes, append_assoc, streamReadLE_leBytes 4 size]
  simp only [seg, app]

theorem zgfxSegments_raw (raw : header &&& 0x20 = 0) (fits : tot < 2 ^ 32)
    (data : List UInt8) (zgfx : ZgfxContext) (joined : List UInt8)
    (room : joined.length + data.length ≤ tot) :
    ∃ zgfx', zgfxSegments tot (segmentCount data.length) zgfx
    (segmentsBytes header data) joined = (zgfx', some (joined ++ data)) := by
  induction data using segments_induction generalizing zgfx joined with
  | nil =>
    rw [append_nil]
    exact ⟨zgfx, rfl⟩
  | step data ne ih =>
    have parts : (data.take ZGFX_SEGMENTED_MAXSIZE).length + (data.drop ZGFX_SEGMENTED_MAXSIZE).length =
        data.length := by
      rw [← length_append, take_append_drop]
    have le : (data.take ZGFX_SEGMENTED_MAXSIZE).length ≤ ZGFX_SEGMENTED_MAXSIZE := by
      rw [length_take]
      exact min_le_left _ _
    have some : (data.take ZGFX_SEGMENTED_MAXSIZE).length ≠ 0 := by
      rw [length_take, ZGFX_SEGMENTED_MAXSIZE]
      omega
    obtain ⟨zgfx', step⟩ := zgfxSegments_step zgfx raw some le
      (segmentsBytes header (data.drop ZGFX_SEGMENTED_MAXSIZE)) joined fits (by omega)
      (segmentCount (data.length - ZGFX_SEGMENTED_MAXSIZE))
    obtain ⟨final, rest⟩ :=
      ih zgfx' (joined ++ data.take ZGFX_SEGMENTED_MAXSIZE) (by rw [length_append]; omega)
    refine ⟨final, ?_⟩
    rw [segmentsBytes_step _ ne, segmentCount_step ne, step]
    rw [length_drop, append_assoc, take_append_drop] at rest
    exact rest

theorem take_srcSize (fits : bytes.length < 2 ^ 32) :
    bytes.take (UInt32.ofNat bytes.length).toNat = bytes := by
  rw [UInt32.toNat_ofNat', Nat.mod_eq_of_lt fits, take_length]

theorem zgfxDecompress_single (raw : header &&& 0x20 = 0) (ne : message ≠ [])
    (le : message.length ≤ ZGFX_SEGMENTED_MAXSIZE)
    (written : bytes = ZGFX_SEGMENTED_SINGLE :: header :: message) :
    (zgfxDecompress zgfx bytes (.ofNat bytes.length)).2 = some message := by
  have some : message.length ≠ 0 := fun h => ne (eq_nil_of_length_eq_zero h)
  obtain ⟨zgfx', seg, out⟩ := zgfxDecompressSegment_raw zgfx raw some le []
  unfold ZGFX_SEGMENTED_MAXSIZE at le
  have fits : bytes.length < 2 ^ 32 := by
    rw [written, length_cons, length_cons]
    omega
  have app : zgfxAppend zgfx' [] message.length = Option.some message := by
    rw [zgfxAppend, out, length_nil, if_neg (by omega), if_neg (by omega), nil_append]
  rw [append_nil] at seg
  have descriptor : zgfxDecompress zgfx bytes (.ofNat bytes.length) =
      zgfxDecompressSingle zgfx (header :: message) := by
    rw [zgfxDecompress, take_srcSize fits, written]
    exact if_pos rfl
  rw [descriptor]
  simp only [zgfxDecompressSingle, length_cons, seg, out, app, if_pos (Nat.pos_of_ne_zero some)]

theorem zgfxDecompress_of_multipart {pSrcData stream : List UInt8} {SrcSize : UInt32}
    (read : pSrcData.take SrcSize.toNat = ZGFX_SEGMENTED_MULTIPART :: stream) :
    zgfxDecompress zgfx pSrcData SrcSize = zgfxDecompressMultipart zgfx stream := by
  have diff : ¬ZGFX_SEGMENTED_MULTIPART = ZGFX_SEGMENTED_SINGLE := by decide
  rw [zgfxDecompress, read]
  exact (if_neg diff).trans (if_pos rfl)

theorem decompressMultipart_of_reads {stream stream' segs : List UInt8} {count : Nat}
    (countRead : streamReadLE 2 stream = some (count, stream'))
    (sizeRead : streamReadLE 4 stream' = some (size, segs)) :
    zgfxDecompressMultipart zgfx stream = zgfxCheckUsed size (zgfxSegments size count zgfx segs []) := by
  simp only [zgfxDecompressMultipart, countRead, sizeRead]

theorem zgfxDecompress_multipart (raw : header &&& 0x20 = 0) (countable : Countable message)
    (written : bytes = ZGFX_SEGMENTED_MULTIPART :: (leBytes 2 (segmentCount message.length) ++
      leBytes 4 message.length ++ segmentsBytes header message)) (fits : bytes.length < 2 ^ 32) :
    (zgfxDecompress zgfx bytes (.ofNat bytes.length)).2 = some message := by
  have size : message.length < 2 ^ 32 := by
    have len := segmentsBytes_length header message
    rw [written] at fits
    simp only [length_cons, length_append, leBytes_length] at fits
    omega
  obtain ⟨_, segs⟩ := zgfxSegments_raw raw size message zgfx [] (by simp)
  rw [zgfxDecompress_of_multipart zgfx ((take_srcSize fits).trans written), append_assoc,
    decompressMultipart_of_reads zgfx (streamReadLE_leBytes 2 countable _)
    (streamReadLE_leBytes 4 size _), segs]
  exact congrArg Prod.snd (if_pos rfl)

/-! ## Sessions -/

def zgfxTransfer (flags : Nat) (zgfx : ZgfxContext) (message : List UInt8) :
    ZgfxContext × Option (List UInt8) :=
  match zgfxCompressToStream [] message flags with
  | .error _ => (zgfx, none)
  | .ok bytes => zgfxDecompress zgfx bytes (.ofNat bytes.length)

theorem zgfxTransfer_eq (raw : RawFlags flags) (zgfx : ZgfxContext)
    (countable : Countable message) : zgfxTransfer flags zgfx message =
      zgfxDecompress zgfx (encoding flags message) (.ofNat (encoding flags message).length) := by
  rw [zgfxTransfer, compressToStream_eq raw [] countable, nil_append]

theorem zgfxTransfer_message (raw : RawFlags flags) (zgfx : ZgfxContext)
    (ne : message ≠ []) (countable : Countable message)
    (fits : (encoding flags message).length < 2 ^ 32) :
    (zgfxTransfer flags zgfx message).2 = some message := by
  rw [zgfxTransfer_eq raw zgfx countable]
  by_cases le : message.length ≤ ZGFX_SEGMENTED_MAXSIZE
  · exact zgfxDecompress_single zgfx raw.header ne le (if_pos le)
  · exact zgfxDecompress_multipart zgfx raw.header countable (if_neg le) fits

/-- Every session of messages comes back, as long as `SrcSize` can hold the size of each encoding. -/
theorem zgfx_session_roundtrip {flags : Nat} (raw : RawFlags flags) (zgfx : ZgfxContext)
    {messages : List (List UInt8)} (nonempty : ∀ message ∈ messages, message ≠ [])
    (countable : ∀ message ∈ messages, Countable message)
    (fits : ∀ message ∈ messages, ∀ bytes, zgfxCompressToStream [] message flags = .ok bytes →
      bytes.length < 2 ^ 32) :
    List.Forall₂ (fun message output => output = some message) messages
      (outputs (zgfxTransfer flags) zgfx messages) := by
  have preserved : ∀ (s : ZgfxContext) (message : List UInt8), True →
      (message ≠ [] ∧ Countable message ∧ (encoding flags message).length < 2 ^ 32) →
      True ∧ (zgfxTransfer flags s message).2 = some message := by
    rintro s message - ⟨some, count, lt⟩
    exact ⟨trivial, zgfxTransfer_message raw s some count lt⟩
  apply forall₂_outputs preserved trivial
  intro message mem
  have count := countable message mem
  refine ⟨nonempty message mem, count, ?_⟩
  exact fits message mem _ (compressToStream_eq raw [] count)

theorem encoding_length_le (flags : Nat) (message : List UInt8) :
    (encoding flags message).length ≤ message.length + 5 * segmentCount message.length + 7 := by
  unfold encoding
  split
  · simp
    omega
  simp [segmentsBytes_length]
  omega

/-- A single-segment message and a multipart one. -/
theorem zgfx_session_roundtrip_both :
    List.Forall₂ (fun message output => output = some message) [[1], List.replicate 65536 0]
      (outputs (zgfxTransfer 0) zgfxContextNew [[1], List.replicate 65536 0]) := by
  have len : ∀ message ∈ [[1], List.replicate 65536 (0 : UInt8)], 0 < message.length ∧
      message.length ≤ 65536 := by
    simp only [List.mem_cons, List.not_mem_nil, or_false, forall_eq_or_imp,
      forall_eq, List.length_replicate, List.length_singleton]
    omega
  have count :
      ∀ message ∈ [[1], List.replicate 65536 (0 : UInt8)], segmentCount message.length < 2 ^ 16 := by
    intro message mem
    have := len message mem
    unfold segmentCount
    omega
  apply zgfx_session_roundtrip (by decide) zgfxContextNew
  · intro message mem
    exact List.ne_nil_of_length_pos (len message mem).1
  · exact count
  intro message mem _ written
  have bound := encoding_length_le 0 message
  have := len message mem
  have := count message mem
  rw [compressToStream_eq (by decide) [] (count message mem)] at written
  cases written
  rw [List.nil_append]
  omega

/-! ## Messages whose encoding is too long -/

theorem zgfxSegments_cut (fits : size < 2 ^ (8 * 4)) {rest : List UInt8} (short : rest.length < size)
    (tot segs : Nat) (joined : List UInt8) :
    (zgfxSegments tot (segs + 1) zgfx (leBytes 4 size ++ rest) joined).2 = none := by
  have cut : zgfxDecompressSegment zgfx rest size = (zgfx, none) := by
    simp [zgfxDecompressSegment, short]
  rw [zgfxSegments, streamReadLE_leBytes 4 fits]
  simp only [cut]

theorem take_past (pre back : List UInt8) (n : Nat) {all : Nat} (split : all = pre.length + n) :
    (pre ++ back).take all = pre ++ back.take n := by
  rw [split, take_length_add_append]

theorem zgfxSegments_cut_segment (header : UInt8) (le : chunk.length ≤ ZGFX_SEGMENTED_MAXSIZE)
    (rest : List UInt8)
    (short : n < (segmentBytes header chunk).length) (tot segs : Nat) (joined : List UInt8) :
    (zgfxSegments tot (segs + 1) zgfx ((segmentBytes header chunk ++ rest).take n) joined).2 = none := by
  rw [segmentBytes_length] at short
  by_cases sized : n < 4
  · have unread : streamReadLE 4 ((segmentBytes header chunk ++ rest).take n) = none := by
      rw [streamReadLE, if_neg (by rw [length_take]; omega)]
    rw [zgfxSegments, unread]
  have size : chunk.length + 1 < 2 ^ (8 * 4) := by
    unfold ZGFX_SEGMENTED_MAXSIZE at le
    omega
  rw [segmentBytes, append_assoc, take_past _ _ (n - 4) (by rw [leBytes_length]; omega)]
  apply zgfxSegments_cut zgfx size
  rw [length_take]
  omega

theorem zgfxSegments_truncated (raw : header &&& 0x20 = 0) (fits : tot < 2 ^ 32) (data : List UInt8)
    (zgfx : ZgfxContext) (joined : List UInt8) (room : joined.length + data.length ≤ tot)
    (short : n < (segmentsBytes header data).length) :
    (zgfxSegments tot (segmentCount data.length) zgfx
      ((segmentsBytes header data).take n) joined).2 = none := by
  induction data using segments_induction generalizing zgfx joined n with
  | nil =>
    rw [segmentsBytes_nil] at short
    exact absurd short (Nat.not_lt_zero n)
  | step data ne ih =>
    have le : (data.take ZGFX_SEGMENTED_MAXSIZE).length ≤ ZGFX_SEGMENTED_MAXSIZE := length_take_le _ _
    have parts : (data.take ZGFX_SEGMENTED_MAXSIZE).length + (data.drop ZGFX_SEGMENTED_MAXSIZE).length =
        data.length := by
      rw [← length_append, take_append_drop]
    have some : (data.take ZGFX_SEGMENTED_MAXSIZE).length ≠ 0 := by
      rw [length_take, ZGFX_SEGMENTED_MAXSIZE]
      omega
    rw [segmentsBytes_step _ ne] at short ⊢
    rw [segmentCount_step ne]
    by_cases cut : n < (segmentBytes header (data.take ZGFX_SEGMENTED_MAXSIZE)).length
    · exact zgfxSegments_cut_segment zgfx header le _ cut _ _ _
    -- the first segment is whole, and the stream ends in a later one
    rw [length_append] at short
    obtain ⟨later, split⟩ := Nat.exists_eq_add_of_le (not_lt.mp cut)
    obtain ⟨zgfx', step⟩ := zgfxSegments_step zgfx raw some le
      ((segmentsBytes header (data.drop ZGFX_SEGMENTED_MAXSIZE)).take later) joined fits (by omega)
      (segmentCount (data.length - ZGFX_SEGMENTED_MAXSIZE))
    rw [take_past _ _ later split, step, ← length_drop]
    exact ih zgfx' _ (by rw [length_append]; omega) (by omega)

theorem zgfxTransfer_largest (len : message.length = 65535 * 65535) :
    (zgfxTransfer 0 zgfx message).2 = none := by
  have count : segmentCount message.length = 65535 := by rw [len, segmentCount]
  have countable : Countable message := by
    rw [Countable, count]
    decide
  have big : ¬message.length ≤ ZGFX_SEGMENTED_MAXSIZE := by
    rw [len, ZGFX_SEGMENTED_MAXSIZE]
    omega
  have fits : message.length < 2 ^ (8 * 4) := by omega
  have bytes :
    encoding 0 message = ZGFX_SEGMENTED_MULTIPART :: (leBytes 2 (segmentCount message.length) ++
      leBytes 4 message.length ++ segmentsBytes (segmentHeader 0) message) := if_neg big
  have size : (UInt32.ofNat (encoding 0 message).length).toNat = 196611 := by
    rw [UInt32.toNat_ofNat', bytes, length_cons, length_append, segmentsBytes_length, count, len]
    simp
  have read : (encoding 0 message).take (UInt32.ofNat (encoding 0 message).length).toNat =
      ZGFX_SEGMENTED_MULTIPART ::
        (leBytes 2 (segmentCount message.length) ++ (leBytes 4 message.length ++
        (segmentsBytes (segmentHeader 0) message).take 196604)) := by
    rw [size, bytes, take_succ_cons, append_assoc, take_past _ _ 196608 (by rw [leBytes_length]),
      take_past _ _ 196604 (by rw [leBytes_length])]
  have short : 196604 < (segmentsBytes (segmentHeader 0) message).length := by
    rw [segmentsBytes_length]
    omega
  have raw : segmentHeader 0 &&& 0x20 = 0 := by decide
  have segs := zgfxSegments_truncated raw fits message zgfx [] (by simp) short
  rw [zgfxTransfer_eq (by decide) zgfx countable, zgfxDecompress_of_multipart zgfx read,
    decompressMultipart_of_reads zgfx (streamReadLE_leBytes 2 countable _)
      (streamReadLE_leBytes 4 fits _)]
  cases res : zgfxSegments message.length (segmentCount message.length) zgfx
    ((segmentsBytes (segmentHeader 0) message).take 196604) [] with
  | mk _ _ =>
    rw [res] at segs
    cases segs
    rfl

/-- The size of the largest countable message does not fit `SrcSize`, and flags that announce compressed
data are taken at their word. -/
theorem zgfx_encoding_not_decoded : (∃ message : List UInt8, message ≠ [] ∧ Countable message ∧
      (zgfxTransfer 0 zgfxContextNew message).2 ≠ some message) ∧
      (zgfxTransfer 0x20 zgfxContextNew [1]).2 ≠ some [1] := by
  have len : (List.replicate (65535 * 65535) (0 : UInt8)).length = 65535 * 65535 := List.length_replicate
  refine ⟨⟨List.replicate (65535 * 65535) 0, List.ne_nil_of_length_pos (by omega), ?_, ?_⟩, ?_⟩
  · rw [Countable, len]
    decide
  · rw [zgfxTransfer_largest zgfxContextNew len]
    exact nofun
  · decide +kernel

end KvmServer.Codec
