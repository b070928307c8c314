import Mathlib

/-! # Run length coded planes (`codec/planar.c`)

A plane is checked by `planar_skip_plane_rle` before one of two decoders reads it.  The decoders do
not check that the raw bytes of a segment are there; a read outside of the source is an error of
its own here. -/

namespace KvmServer.Codec

inductive PlanarStop where
  /-- A `WINPR_ASSERT` fails. -/
  | assertion
  /-- The decoder returns -1. -/
  | refused
  /-- A byte outside of the source is read. -/
  | outside
deriving DecidableEq

def planarSegment (controlByte : UInt8) : Nat × Nat :=
  let nRunLength := (controlByte &&& 0x0F).toNat
  let cRawBytes := (controlByte >>> 4).toNat
  if nRunLength = 1 then (cRawBytes + 16, 0)
  else if nRunLength = 2 then (cRawBytes + 32, 0)
  else (nRunLength, cRawBytes)

/-! ## Checking -/

/-- The segments of a row, with `UINT32` counters; `none` is a -1.  Each round uses up a byte. -/
def planarSkipRow (pSrcData : List UInt8) (nWidth : Nat) : Nat → Nat → Nat → Option Nat
  | 0, _, _ => none
  | fuel + 1, x, used =>
    if x ≥ nWidth then some used
    else
      match pSrcData[used]? with
      | none => none
      | some controlByte =>
        let (nRunLength, cRawBytes) := planarSegment controlByte
        let used := (used + 1 + cRawBytes) % 2 ^ 32
        let x := (x + cRawBytes + nRunLength) % 2 ^ 32
        if x > nWidth then none
        else if used > pSrcData.length then none
        else planarSkipRow pSrcData nWidth fuel x used

def planarSkipRows (pSrcData : List UInt8) (nWidth : Nat) : Nat → Nat → Option Nat
  | 0, used => some used
  | nHeight + 1, used =>
    match planarSkipRow pSrcData nWidth (pSrcData.length + 1) 0 used with
    | none => none
    | some used => planarSkipRows pSrcData nWidth nHeight used

def planarSkipPlaneRle (pSrcData : List UInt8) (nWidth nHeight : Nat) : Option Nat :=
  match planarSkipRows pSrcData nWidth nHeight 0 with
  | none => none
  | some used => if used > 2 ^ 31 - 1 then none else some used

/-! ## Decoding -/

structure PlanarRow where
  srcp : Nat
  pixel : Int
  samples : List UInt8

variable (memory : List UInt8)

def planarRead (i : Nat) : Except PlanarStop UInt8 :=
  match memory[i]? with
  | none => .error .outside
  | some byte => .ok byte

def planarDelta (deltaValue : UInt8) : Int :=
  if deltaValue &&& 1 ≠ 0 then -((deltaValue >>> 1).toNat + 1) else (deltaValue >>> 1).toNat

/-- A sample is the pixel itself in the first row, and relative to the row above in the others. -/
def planarEmit (previousScanline : Option (List UInt8)) (row : PlanarRow) : PlanarRow :=
  let value := match previousScanline with
    | none => row.pixel
    | some previous => (previous.getD row.samples.length 0).toNat + row.pixel
  { row with samples := row.samples ++ [UInt8.ofNat (value % 256).toNat] }

def planarRaw (memory : List UInt8) (previousScanline : Option (List UInt8)) :
    Nat → PlanarRow → Except PlanarStop PlanarRow
  | 0, row => .ok row
  | cRawBytes + 1, row =>
    match planarRead memory row.srcp with
    | .error stop => .error stop
    | .ok byte =>
      let pixel : Int := if previousScanline.isNone then byte.toNat else planarDelta byte
      planarRaw memory previousScanline cRawBytes
        (planarEmit previousScanline { row with srcp := row.srcp + 1, pixel := pixel })

def planarRun (previousScanline : Option (List UInt8)) : Nat → PlanarRow → PlanarRow
  | 0, row => row
  | nRunLength + 1, row => planarRun previousScanline nRunLength (planarEmit previousScanline row)

def planarRow (memory : List UInt8) (SrcSize nWidth step : Nat)
    (previousScanline : Option (List UInt8)) :
    Nat → PlanarRow → Except PlanarStop PlanarRow
  | 0, _ => .error .refused
  | fuel + 1, row =>
    if row.samples.length ≥ nWidth then .ok row
    else
      match planarRead memory row.srcp with
      | .error stop => .error stop
      | .ok controlByte =>
        if row.srcp + 1 > SrcSize then .error .refused
        else
          let (nRunLength, cRawBytes) := planarSegment controlByte
          -- the destination pointer counts bytes, the segment is counted in samples
          if step * row.samples.length + (cRawBytes + nRunLength) > nWidth * step then .error .refused
          else
            match planarRaw memory previousScanline cRawBytes { row with srcp := row.srcp + 1 } with
            | .error stop => .error stop
            | .ok row => planarRow memory SrcSize nWidth step previousScanline fuel
              (planarRun previousScanline nRunLength row)

def planarRows (memory : List UInt8) (SrcSize nWidth step : Nat) :
    Nat → Option (List UInt8) → Nat → Except PlanarStop (Nat × List (List UInt8))
  | 0, _, srcp => .ok (srcp, [])
  | nHeight + 1, previousScanline, srcp =>
    match planarRow memory SrcSize nWidth step previousScanline (SrcSize + 1) ⟨srcp, 0, []⟩ with
    | .error stop => .error stop
    | .ok row =>
      match planarRows memory SrcSize nWidth step nHeight (some row.samples) row.srcp with
      | .error stop => .error stop
      | .ok (srcp, rows) => .ok (srcp, row.samples :: rows)

def planarDecompressPlaneRleOnly (SrcSize nWidth nHeight : Nat) :
    Except PlanarStop (Nat × List (Nat × List UInt8)) :=
  if nHeight > 2 ^ 31 - 1 ∨ nWidth > 2 ^ 31 - 1 then .error .assertion
  else
    (planarRows memory SrcSize nWidth 1 nHeight none 0).map fun (srcp, rows) =>
      (srcp, ((List.range nHeight).map (· * nWidth)).zip rows)

def planarRowOrder (vFlip : Bool) (nHeight : Nat) : List Nat :=
  if vFlip then (List.range nHeight).reverse else List.range nHeight

def planarDecompressPlaneRle (SrcSize nDstStep nXDst nYDst nWidth nHeight nChannel : Nat)
    (vFlip : Bool) : Except PlanarStop (Nat × List (Nat × List UInt8)) :=
  if nHeight > 2 ^ 31 - 1 ∨ nWidth > 2 ^ 31 - 1 ∨ nDstStep > 2 ^ 31 - 1 then .error .assertion
  else
    (planarRows memory SrcSize nWidth 4 nHeight none 0).map fun (srcp, rows) =>
      (srcp, ((planarRowOrder vFlip nHeight).map fun y => (nYDst + y) * nDstStep +
        4 * nXDst + nChannel).zip rows)

/-! ## What was checked is decoded -/

theorem planarSegment_le (controlByte : UInt8) :
    (planarSegment controlByte).1 ≤ 47 ∧ (planarSegment controlByte).2 ≤ 15 := by
  have run : (controlByte &&& 0x0F).toNat ≤ 15 := by
    exact Nat.and_le_right
  have raw : (controlByte >>> 4).toNat ≤ 15 := by
    have := controlByte.toNat_lt
    rw [UInt8.toNat_shiftRight, Nat.shiftRight_eq_div_pow]
    change controlByte.toNat / 2 ^ 4 ≤ 15
    omega
  unfold planarSegment
  dsimp only
  iterate 2
    split
    · exact ⟨by dsimp only; omega, Nat.zero_le _⟩
  · exact ⟨by dsimp only; omega, raw⟩

def Shows (src memory : List UInt8) (n : Nat) : Prop := ∀ i < n, memory[i]? = src[i]?

variable {src : List UInt8} {n : Nat}

theorem planarEmit_length (prevLine : Option (List UInt8)) (row : PlanarRow) :
    (planarEmit prevLine row).samples.length = row.samples.length + 1 :=
  List.length_append

theorem planarRun_spec (prevLine : Option (List UInt8)) (nRunLength : Nat) (row : PlanarRow) :
    (planarRun prevLine nRunLength row).srcp = row.srcp ∧
      (planarRun prevLine nRunLength row).samples.length = row.samples.length + nRunLength := by
  induction nRunLength generalizing row with
  | zero => exact ⟨rfl, rfl⟩
  | succ nRunLength ih =>
    obtain ⟨srcp, len⟩ := ih (planarEmit prevLine row)
    rw [planarEmit_length] at len
    exact ⟨srcp, by rw [planarRun, len]; omega⟩

theorem planarRead_shown {i : Nat} (inside : i < n) (le : n ≤ src.length) :
    ∃ byte, ∀ memory, Shows src memory n → planarRead memory i = .ok byte := by
  refine ⟨src.get ⟨i, by omega⟩, fun memory shows => ?_⟩
  rw [planarRead, shows i inside, List.getElem?_eq_getElem (by omega)]
  rfl

theorem planarRaw_spec (prevLine : Option (List UInt8)) (le : n ≤ src.length) (cRawBs : Nat)
    (row : PlanarRow) (inside : row.srcp + cRawBs ≤ n) :
    ∃ row', row'.srcp = row.srcp + cRawBs ∧ row'.samples.length = row.samples.length + cRawBs ∧
      ∀ memory, Shows src memory n → planarRaw memory prevLine cRawBs row = .ok row' := by
  induction cRawBs generalizing row with
  | zero => exact ⟨row, rfl, rfl, fun _ _ => rfl⟩
  | succ cRawBs ih =>
    obtain ⟨value, byte⟩ := @planarRead_shown src n row.srcp (by omega) le
    obtain ⟨row', srcp, len, dec⟩ := ih (planarEmit prevLine
      { row with srcp := row.srcp + 1, pixel := if prevLine.isNone then value.toNat
        else planarDelta value })
      (by simp only [planarEmit]; omega)
    rw [planarEmit_length] at len
    refine ⟨row', ?_, ?_, fun memory shows => ?_⟩
    · simp only [planarEmit] at srcp
      omega
    · dsimp only at len
      omega
    rw [planarRaw, byte memory shows]
    exact dec memory shows

theorem planarRow_of_skip {nWidth : Nat} (prevLine : Option (List UInt8)) (lt : src.length + 16 ≤ 2 ^ 32)
    (narrow : nWidth < 2 ^ 31) (le : n ≤ src.length) {fuel used : Nat} {row : PlanarRow}
    (skip : planarSkipRow src nWidth fuel row.samples.length row.srcp = some used) (inside : used ≤ n)
    (st : row.samples.length ≤ nWidth) :
    row.srcp ≤ used ∧ ∃ row', row'.srcp = used ∧ row'.samples.length = nWidth ∧
      ∀ memory step, Shows src memory n → 0 < step →
      planarRow memory src.length nWidth step prevLine fuel row = .ok row' := by
  induction fuel generalizing row with
  | zero => cases skip
  | succ fuel ih =>
    rw [planarSkipRow] at skip
    split at skip
    next full =>
      cases skip
      refine ⟨le_refl _, row, rfl, by omega, fun memory step _ _ => ?_⟩
      rw [planarRow, if_pos full]
    next more =>
      split at skip
      · cases skip
      next controlByte got =>
        obtain ⟨_, _⟩ := List.getElem?_eq_some_iff.mp got
        obtain ⟨_, _⟩ := planarSegment_le controlByte
        dsimp only at skip
        rw [Nat.mod_eq_of_lt (by omega), Nat.mod_eq_of_lt (by omega)] at skip
        iterate 2
          split at skip
          · cases skip
        next _ _ =>
          generalize segEq : planarSegment controlByte = seg at *
          -- what is behind this segment reaches as far as the check did
          have past (row' : PlanarRow) (srcp : row'.srcp = row.srcp + 1 + seg.2)
              (len : row'.samples.length = row.samples.length + seg.2 + seg.1) :=
            @ih row' (by rw [srcp, len]; exact skip) (by omega)
          have reach := (past ⟨_, 0, List.replicate _ 0⟩ rfl List.length_replicate).1
          dsimp only at reach
          obtain ⟨raw, rawSrcp, rawLen, rawDec⟩ := planarRaw_spec prevLine le seg.2
            { row with srcp := row.srcp + 1 } (by dsimp only; omega)
          obtain ⟨runSrcp, runSamples⟩ := planarRun_spec prevLine seg.1 raw
          obtain ⟨-, row', srcp, len, dec⟩ := past (planarRun prevLine seg.1 raw)
            (by rw [runSrcp, rawSrcp]) (by rw [runSamples, rawLen])
          obtain ⟨byte, shown⟩ := @planarRead_shown src n row.srcp (by omega) le
          refine ⟨by omega, row', srcp, len, fun memory step shows pos => ?_⟩
          have same : byte = controlByte := by
            have := shown src fun _ _ => rfl
            rw [planarRead, got] at this
            exact (Except.ok.inj this).symm
          have room : ¬step * row.samples.length + (seg.2 + seg.1) > nWidth * step := by
            have grown : step * (row.samples.length + (seg.2 + seg.1)) ≤ step * nWidth :=
              Nat.mul_le_mul_left _ (by omega)
            have once : seg.2 + seg.1 ≤ step * (seg.2 + seg.1) := Nat.le_mul_of_pos_left _ pos
            rw [mul_add] at grown
            rw [mul_comm nWidth]
            omega
          rw [planarRow, if_neg more, shown memory shows, same]
          dsimp only
          rw [if_neg (by omega), segEq, if_neg room, rawDec memory shows]
          exact dec memory step shows pos

variable {nWidth nHeight used used' : Nat}

theorem planarRows_of_skip (lt : src.length + 16 ≤ 2 ^ 32) (narrow : nWidth < 2 ^ 31)
    (le : used ≤ src.length) (prevLine : Option (List UInt8)) {srcp : Nat}
    (skip : planarSkipRows src nWidth nHeight srcp = some used) :
    srcp ≤ used ∧
    ∃ rows : List (List UInt8), rows.length = nHeight ∧ (∀ row ∈ rows, row.length = nWidth) ∧
      ∀ memory step, Shows src memory used → 0 < step →
        planarRows memory src.length nWidth step nHeight prevLine srcp = .ok (used, rows) := by
  induction nHeight generalizing prevLine srcp with
  | zero =>
    cases skip
    exact ⟨le_refl _, [], rfl, by simp, fun _ _ _ _ => rfl⟩
  | succ nHeight ih =>
    rw [planarSkipRows] at skip
    split at skip
    · cases skip
    next mid row =>
      have later := (ih none skip).1
      obtain ⟨st, row', rowSrcp, len, dec⟩ := @planarRow_of_skip src used nWidth prevLine lt
        narrow le _ mid ⟨srcp, 0, []⟩ row later (Nat.zero_le _)
      obtain ⟨-, rows, count, widths, others⟩ := ih (some row'.samples) skip
      refine ⟨le_trans st later, row'.samples :: rows, by rw [List.length_cons, count],
        List.forall_mem_cons.mpr ⟨len, widths⟩, fun memory step shows pos => ?_⟩
      rw [planarRows, dec memory step shows pos]
      dsimp only
      rw [rowSrcp, others memory step shows pos]

theorem planarSkipRow_le {fuel x : Nat} (le : used ≤ src.length)
    (skip : planarSkipRow src nWidth fuel x used = some used') : used' ≤ src.length := by
  induction fuel generalizing x used with
  | zero => cases skip
  | succ fuel ih =>
    rw [planarSkipRow] at skip
    split at skip
    · cases skip
      exact le
    split at skip
    · cases skip
    dsimp only at skip
    iterate 2
      split at skip
      · cases skip
    next available => exact ih (not_lt.mp available) skip

theorem planarSkipRows_le (le : used ≤ src.length)
    (skip : planarSkipRows src nWidth nHeight used = some used') : used' ≤ src.length := by
  induction nHeight generalizing used with
  | zero =>
    cases skip
    exact le
  | succ nHeight ih =>
    rw [planarSkipRows] at skip
    split at skip
    · cases skip
    next row => exact ih (planarSkipRow_le le row) skip

/-- A plane that passes the check is decoded by both decoders into the same rows, whatever stands
behind the bytes that were counted. -/
theorem planar_check_sound (pSrcData : List UInt8) (nWidth nHeight n : Nat)
    (small : pSrcData.length + 16 ≤ 2 ^ 32) (narrow : nWidth ≤ 2 ^ 31 - 1) (low : nHeight ≤ 2 ^ 31 - 1)
    (checked : planarSkipPlaneRle pSrcData nWidth nHeight = some n) :
    ∃ rows : List (List UInt8), rows.length = nHeight ∧ (∀ row ∈ rows, row.length = nWidth) ∧ ∀ behind,
      planarDecompressPlaneRleOnly (pSrcData.take n ++ behind) pSrcData.length nWidth nHeight =
        .ok (n, ((List.range nHeight).map (· * nWidth)).zip rows) ∧
      ∀ nDstStep nXDst nYDst nChannel vFlip, nDstStep ≤ 2 ^ 31 - 1 → planarDecompressPlaneRle
        (pSrcData.take n ++ behind) pSrcData.length nDstStep nXDst nYDst nWidth nHeight
            nChannel vFlip = .ok (n, ((planarRowOrder vFlip nHeight).map fun y =>
            (nYDst + y) * nDstStep + 4 * nXDst + nChannel).zip rows) := by
  unfold planarSkipPlaneRle at checked
  split at checked
  · cases checked
  next _ skip =>
    split at checked
    · cases checked
    cases checked
    have le := planarSkipRows_le (Nat.zero_le _) skip
    obtain ⟨-, rows, count, widths, dec⟩ := planarRows_of_skip small (by omega) le none skip
    refine ⟨rows, count, widths, fun behind => ?_⟩
    have shows : Shows pSrcData (pSrcData.take n ++ behind) n := by
      intro i inside
      rw [List.getElem?_append_left (by rw [List.length_take]; omega), List.getElem?_take_of_lt inside]
    constructor
    · rw [planarDecompressPlaneRleOnly, if_neg (by omega), dec _ 1 shows (by decide)]
      rfl
    intro nDstStep nXDst nYDst nChannel vFlip _
    rw [planarDecompressPlaneRle, if_neg (by omega), dec _ 4 shows (by decide)]
    rfl

/-- The theorem at a plane of two rows with two pixels. -/
theorem planar_check_sound_two_rows :
    planarSkipPlaneRle [0x20, 7, 9, 0x11, 2] 2 2 = none ∧
    planarSkipPlaneRle [0x20, 7, 9, 0x20, 2, 2] 2 2 = some 6 ∧
      ∃ rows : List (List UInt8), rows.length = 2 ∧ ∀ row ∈ rows, row.length = 2 :=
  have sound :=
    planar_check_sound [0x20, 7, 9, 0x20, 2, 2] 2 2 6 (by decide) (by decide) (by decide) (by decide)
  ⟨by decide, by decide, sound.imp fun _ plane => ⟨plane.1, plane.2.1⟩⟩

/-- An empty plane that is too wide passes the check, and the decoders stop at an assertion. -/
theorem planar_check_not_sound : ∃ pSrcData nWidth nHeight n,
    planarSkipPlaneRle pSrcData nWidth nHeight = some n ∧
    planarDecompressPlaneRleOnly pSrcData pSrcData.length nWidth nHeight = .error .assertion :=
  ⟨[], 2 ^ 31, 0, 0, rfl, rfl⟩

end KvmServer.Codec
