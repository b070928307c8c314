import KvmServer.Codec.ClearMessage

/-! # What the sections of a ClearCodec message consume

A section is read record by record until its offset has reached the declared count, so it takes the
bytes it declares exactly if these are a whole number of records. -/

namespace KvmServer.Codec
open Lib Winpr

def ClearBitmap.Exact (bitmap : ClearBitmap) : Prop :=
  bitmap.data.length = bitmap.bitmapDataByteCount + bitmap.rest.length

/-- Every section, and every bitmap of the last one, takes the bytes it declares. -/
structure ClearPayload.Exact (payload : ClearPayload) : Prop where
  residual : payload.body.length = payload.residualByteCount + payload.afterResidual.length
  bands : payload.afterResidual.length = payload.bandsByteCount + payload.afterBands.length
  subcodecs : payload.afterBands.length = payload.subcodecByteCount + payload.afterSubcodecs.length
  bitmaps : ∀ bitmap ∈ payload.bitmaps, bitmap.Exact

section
variable (call : ClearCall)

/-- The declared bytes of a segmented bitmap are its palette and a whole number of segments. -/
def ClearBitmap.Whole (bitmap : ClearBitmap) : Prop :=
  bitmap.subcodecId = 2 → ∃ palette middle rest, rlexPalette call bitmap.data = some (palette, middle) ∧
    WholeRecords (rlexSegment palette (bitmap.width * bitmap.height)) bitmap.bitmapDataByteCount
      (fun _ => True)
      ⟨0, []⟩ middle (bitmap.data.length - middle.length) rest

/-- The body of a message begins with a whole number of runs, then of bands, then of bitmaps, of the
declared lengths. -/
def SectionsWhole (caches : ClearCaches) (residualByteCount bandsByteCount subcodecByteCount : Nat)
    (body : List UInt8) : Prop :=
  ∃ afterResidual afterBands afterSubcodecs,
    WholeRecords (residualRun call (call.dst.nWidth.toNat * call.dst.nHeight.toNat))
      residualByteCount (fun _ => True)
      ⟨0, []⟩ body 0 afterResidual ∧
    WholeRecords (clearBand call) bandsByteCount (fun _ => True) caches.bars afterResidual 0 afterBands ∧
    WholeRecords (clearSubcodec call) subcodecByteCount
      (fun bitmaps => ∀ bitmap ∈ bitmaps, bitmap.Whole call) []
      afterBands 0 afterSubcodecs

variable {call}

/-! ## Bitmaps -/

variable {bitmap : ClearBitmap} {bmps : List ClearBitmap} {rest body : List UInt8}
  {residByteCnt bandsByteCnt subcodecByteCnt : Nat} {payload : ClearPayload} {glyphFlags : UInt8}

theorem rlex_exact_iff (small : bitmap.data.length < 2 ^ 32)
    (dec : clearDecompressSubcodeRlex call bitmap.bitmapDataByteCount bitmap.width
      bitmap.height bitmap.data = some bitmap.rest) : bitmap.Exact ↔ ∃ palette mid rest,
        rlexPalette call bitmap.data = some (palette, mid) ∧
      WholeRecords (rlexSegment palette (bitmap.width * bitmap.height)) bitmap.bitmapDataByteCount
      (fun _ => True) ⟨0, []⟩ mid (bitmap.data.length - mid.length) rest := by
  obtain ⟨⟨palette, mid⟩, read, dec⟩ := Option.bind_eq_some_iff.mp dec
  obtain ⟨⟨_, rest⟩, segs, dec⟩ := Option.bind_eq_some_iff.mp dec
  have lt := rlexPalette_rest call read
  have same : rest = bitmap.rest := by
    dsimp only at dec
    split at dec
    · cases dec
    · exact Option.some_inj.mp dec
  subst same
  constructor
  · intro exact
    rw [ClearBitmap.Exact] at exact
    exact ⟨palette, mid, _, read, wholeRecords_of_readUntil segs (by omega) trivial⟩
  rintro ⟨_, _, _, again, all⟩
  rw [read] at again
  cases again
  obtain ⟨_, res, _, -⟩ :=
    all.readUntil_eq (rlexSegment_honest _ _).progresses (rlexSegment_honest _ _) (by omega)
  rw [segs] at res
  cases res
  rw [ClearBitmap.Exact]
  omega

theorem bitmap_exact_iff {xSt ySt : Nat} (lt : bitmap.data.length < 2 ^ 32)
    (declared : bitmap.bitmapDataByteCount ≤ bitmap.data.length)
    (dec : clearBitmapData call xSt ySt bitmap.width bitmap.height bitmap.bitmapDataByteCount
      bitmap.subcodecId bitmap.data = some bitmap.rest) : bitmap.Exact ↔ bitmap.Whole call := by
  unfold clearBitmapData at dec
  dsimp only at dec
  -- the other two subcodecs skip the declared bytes
  have skipped (rest : bitmap.data.drop bitmap.bitmapDataByteCount = bitmap.rest) : bitmap.Exact := by
    rw [ClearBitmap.Exact, ← rest, List.length_drop]
    omega
  split at dec
  next uncompressed =>
    refine iff_of_true ?_ fun segmented => absurd (uncompressed.symm.trans segmented) (by decide)
    split at dec
    · cases dec
    split at dec
    · exact skipped (Option.some_inj.mp dec)
    · cases dec
  next nsc =>
    refine iff_of_true ?_ fun segmented => absurd (nsc.symm.trans segmented) (by decide)
    split at dec
    · exact skipped (Option.some_inj.mp dec)
    · cases dec
  next segmented =>
    rw [ClearBitmap.Whole, rlex_exact_iff lt dec]
    exact ⟨fun all _ => all, fun all => all segmented⟩
  · cases dec

/-! ## Sections -/

theorem clearSubcodec_honest : HonestWhen (clearSubcodec call) fun bmps =>
    ∀ bitmap ∈ bmps, bitmap.Exact := by
  intro bmps _ _ _ _ read exact
  obtain ⟨_, _, bitmap, rfl, rfl, rfl, _, -, -⟩ := clearSubcodec_cases call read
  have last := exact bitmap (List.mem_append_right _ (List.mem_singleton_self _))
  rw [ClearBitmap.Exact] at last
  exact ⟨fun bitmap mem => exact bitmap (List.mem_append_left _ mem), by omega, by omega⟩

variable {bytes after : List UInt8} {caches : ClearCaches} {count : Nat}

theorem records_bitmaps {n : Nat} {bitmaps' : List ClearBitmap} (small : bytes.length < 2 ^ 32)
    (read : records (clearSubcodec call) n bmps bytes = some (bitmaps', rest))
    (pre : ∀ bitmap ∈ bmps, (bitmap.Exact ↔ bitmap.Whole call)) :
    ∀ bitmap ∈ bitmaps', (bitmap.Exact ↔ bitmap.Whole call) := by
  induction n generalizing bmps bytes with
  | zero =>
    cases read
    exact pre
  | succ n ih =>
    rw [records] at read
    split at read
    · cases read
    next _ _ _ fst =>
      have lt := clearSubcodec_progresses call fst
      obtain ⟨_, _, bitmap, rfl, rfl, rfl, _, declared, dec⟩ := clearSubcodec_cases call fst
      refine ih (lt_trans lt small) read ?_
      intro other mem
      cases List.mem_append.mp mem with
      | inl earlier => exact pre other earlier
      | inr last =>
        rw [List.mem_singleton.mp last]
        exact bitmap_exact_iff (by omega) declared dec

theorem wholeRecords_bitmaps (lt : bytes.length < 2 ^ 32) :
    WholeRecords (clearSubcodec call) count (fun bmps => ∀ bitmap ∈ bmps, bitmap.Whole call)
    [] bytes 0 rest ↔
      WholeRecords (clearSubcodec call) count (fun bmps => ∀ bitmap ∈ bmps, bitmap.Exact)
      [] bytes 0 rest := by
  refine exists_congr fun n => exists_congr fun bmps => and_congr_right fun read =>
    and_congr_right fun _ => ?_
  have same := records_bitmaps lt read (by simp)
  exact forall₂_congr fun bitmap mem => (same bitmap mem).symm

theorem residual_reads
    (dec : (if residByteCnt > 0 then clearDecompressResidualData call residByteCnt body else some body) =
      some after) : ∃ st, readUntil
        (residualRun_honest call (call.dst.nWidth.toNat * call.dst.nHeight.toNat)).progresses
      residByteCnt ⟨0, []⟩ body 0 = some (st, after) := by
  split at dec
  · unfold clearDecompressResidualData at dec
    split at dec
    · cases dec
    obtain ⟨⟨st, _⟩, read, dec⟩ := Option.bind_eq_some_iff.mp dec
    dsimp only at dec
    split at dec
    · cases dec
    split at dec
    · cases dec
      exact ⟨st, read⟩
    · cases dec
  next =>
    cases dec
    exact ⟨_, readUntil_of_reached _ _ _ (by omega)⟩

theorem section_reads {σ : Type} {step : σ → List UInt8 → Option (σ × Nat × List UInt8)}
    {progs : Progresses step} {st : σ} {short : Prop} [Decidable short] {result : σ × List UInt8}
    (dec : (if count > 0 then if short then none else readUntil progs count st bytes 0
      else some (st, bytes)) = some result) : readUntil progs count st bytes 0 = some result := by
  split at dec
  · split at dec
    · cases dec
    · exact dec
  next =>
    rw [← dec]
    exact readUntil_of_reached _ _ _ (by omega)

theorem sections_exact_iff {bars : ClearContext} (lt : body.length < 2 ^ 32)
    (dec : clearSections call caches residByteCnt bandsByteCnt subcodecByteCnt body =
      some (bars, payload)) :
    payload.Exact ↔ SectionsWhole call payload.caches payload.residualByteCount payload.bandsByteCount
      payload.subcodecByteCount payload.body := by
  obtain ⟨afterResidual, residual, dec⟩ := Option.bind_eq_some_iff.mp dec
  obtain ⟨⟨_, afterBands⟩, bands, dec⟩ := Option.bind_eq_some_iff.mp dec
  obtain ⟨⟨_, afterSubcodecs⟩, subcodecs, same⟩ := Option.map_eq_some_iff.mp dec
  cases same
  obtain ⟨_, readResidual⟩ := residual_reads residual
  have readBands := section_reads bands
  have readSubcodecs := section_reads subcodecs
  have lenResidual := readUntil_rest readResidual
  have lenBands := readUntil_rest readBands
  constructor
  · intro exact
    refine ⟨afterResidual, afterBands, afterSubcodecs, ?_, ?_, ?_⟩
    · exact wholeRecords_of_readUntil readResidual ((zero_add _).trans exact.residual) trivial
    · exact wholeRecords_of_readUntil readBands ((zero_add _).trans exact.bands) trivial
    refine (wholeRecords_bitmaps (by omega)).mpr ?_
    exact wholeRecords_of_readUntil readSubcodecs ((zero_add _).trans exact.subcodecs) exact.bitmaps
  rintro ⟨_, _, _, all₁, all₂, all₃⟩
  -- each section is read up to where the records end, so the next one begins there
  obtain ⟨_, res₁, ends₁, -⟩ :=
    all₁.readUntil_eq (residualRun_honest call _).progresses (residualRun_honest call _)
      (by dsimp only; omega)
  rw [readResidual] at res₁
  cases res₁
  obtain ⟨_, res₂, ends₂, -⟩ :=
    all₂.readUntil_eq (clearBand_honest call).progresses (clearBand_honest call) (by omega)
  rw [readBands] at res₂
  cases res₂
  obtain ⟨_, res₃, ends₃, exact⟩ := ((wholeRecords_bitmaps (by omega)).mp all₃).readUntil_eq
    (clearSubcodec_progresses call) clearSubcodec_honest (by omega)
  rw [readSubcodecs] at res₃
  cases res₃
  rw [zero_add] at ends₁ ends₂ ends₃
  exact ⟨ends₁, ends₂, ends₃, exact⟩

theorem clearHeader_cases {seqNum : UInt8}
    (header : clearHeader call = some (glyphFlags, seqNum, bytes)) :
    call.pSrcData = glyphFlags :: seqNum :: bytes := by
  unfold clearHeader at header
  iterate 3
    split at header
    · cases header
  split at header
  next _ _ _ msg =>
    split at header
    · cases header
      exact msg
    · cases header
  · cases header

theorem clearDecompressData_cases {caches' : ClearCaches}
    (dec : clearDecompressData call caches glyphFlags bytes = some (caches', some payload)) :
    ∃ before bars residByteCnt bandsByteCnt subcodecByteCnt body, body.length ≤ bytes.length ∧
      clearSections call before residByteCnt bandsByteCnt subcodecByteCnt body =
      some (bars, payload) := by
  obtain ⟨⟨_, _, rest⟩, gl, dec⟩ := Option.bind_eq_some_iff.mp dec
  have le : rest.length ≤ bytes.length := by
    unfold clearDecompressGlyphData at gl
    dsimp only at gl
    split at gl
    · cases gl
    split at gl
    · cases gl
      exact le_rfl
    split at gl
    · cases gl
    obtain ⟨⟨_, _⟩, read, gl⟩ := Option.bind_eq_some_iff.mp gl
    have len := streamReadLE_rest read
    dsimp only at gl
    repeat' split at gl
    all_goals cases gl
    all_goals omega
  dsimp only at dec
  split at dec
  · split at dec <;> cases dec
  obtain ⟨⟨bars, body'⟩, sections, dec⟩ := Option.bind_eq_some_iff.mp dec
  have same : body' = payload := by
    split at dec
    · cases dec
      rfl
    split at dec <;> cases dec
    rfl
  subst same
  refine ⟨_, _, _, _, _, _, ?_, sections⟩
  rw [List.length_drop]
  omega

theorem clearDecompress_accepts {expected : Nat} {result : ClearCaches × Option ClearPayload}
    (acc : (clearDecompress call expected caches).2 = some result) :
    ∃ glyphFlags seqNum bytes, clearHeader call = some (glyphFlags, seqNum, bytes) ∧
      seqNum.toNat = clearExpected expected seqNum ∧
      clearDecompressData call caches glyphFlags bytes = some result := by
  unfold clearDecompress at acc
  split at acc
  · cases acc
  next glyphFlags seqNum bytes header =>
    split at acc
    · cases acc
    next same => exact ⟨glyphFlags, seqNum, bytes, header, not_not.mp same, acc⟩

/-- When a message is accepted, its sections consume what they declare exactly if the declared
bytes are whole records. -/
theorem clear_sections_exact_iff (call : ClearCall) (expected : Nat) (caches caches' : ClearCaches)
    (payload : ClearPayload)
    (accepted : (clearDecompress call expected caches).2 = some (caches', some payload)) :
    payload.Exact ↔ SectionsWhole call payload.caches payload.residualByteCount payload.bandsByteCount
      payload.subcodecByteCount payload.body := by
  obtain ⟨_, _, _, header, -, dec⟩ := clearDecompress_accepts accepted
  obtain ⟨_, _, _, _, _, body, _, sections⟩ := clearDecompressData_cases dec
  refine sections_exact_iff ?_ sections
  -- the sections are part of a message whose size is a `UINT32`
  have msg := congrArg List.length (clearHeader_cases header)
  have fits := call.fits
  simp only [List.length_cons] at msg
  omega

end

/-! ## One pixel -/

/-- A message with one run of one pixel, four bytes, in a residual section that declares
`residualByteCount`. -/
def onePixelCall (residualByteCount : UInt8) : ClearCall where
  hasDst := true
  dst := ⟨1, 1, 0, 0, 1, 1⟩
  pSrcData := [0, 0, residualByteCount, 0, 0, 0, 0, 0, 0, 0, 0, 0, 0, 0, 1, 2, 3, 1]
  fits := by simp
  fmt := ⟨fun _ _ _ => 0, id, true, true⟩
  formatSet := true
  imageCopy _ _ _ _ _ := true
  nscProcessMessage _ _ _ _ _ := true

def emptyCaches : ClearCaches := ⟨⟨0, fun _ => ⟨0, 0, []⟩, 0, fun _ => ⟨0, 0, []⟩⟩, fun _ => ⟨0, 0⟩⟩

def onePixelPayload (residualByteCount : Nat) : ClearPayload :=
  ⟨residualByteCount, 0, 0, emptyCaches, [1, 2, 3, 1], [], [], [], []⟩

theorem onePixelCall_accepted {residualByteCount : UInt8} (one : 0 < residualByteCount.toNat)
    (four : residualByteCount.toNat ≤ 4) :
    (clearDecompress (onePixelCall residualByteCount) 0 emptyCaches).2 =
      some (emptyCaches, some (onePixelPayload residualByteCount.toNat)) := by
  have count : leValue [residualByteCount, 0, 0, 0] = residualByteCount.toNat := by
    simp [leValue]
  have run :
    readUntil (residualRun_honest (onePixelCall residualByteCount) 1).progresses residualByteCount.toNat
      ⟨0, []⟩ [1, 2, 3, 1] 0 = some (⟨1, [(0, 1)]⟩, []) := by
    rw [readUntil_of_step _ one (show residualRun _ _ _ _ = some (_, 4, []) from rfl)]
    exact readUntil_of_reached _ _ _ (by omega)
  have residual :
      clearDecompressResidualData (onePixelCall residualByteCount) residualByteCount.toNat [1, 2, 3, 1] =
      some [] := by
    unfold clearDecompressResidualData
    rw [if_neg (by simpa using four)]
    exact Option.bind_eq_some_iff.mpr ⟨_, run, rfl⟩
  have sections :
      clearSections (onePixelCall residualByteCount) emptyCaches residualByteCount.toNat 0 0 [1, 2, 3, 1] =
      some (emptyCaches.bars, onePixelPayload residualByteCount.toNat) := by
    unfold clearSections
    rw [if_pos one, residual]
    rfl
  change clearDecompressData (onePixelCall residualByteCount) emptyCaches 0
    [residualByteCount, 0, 0, 0, 0, 0, 0, 0, 0, 0, 0, 0, 1, 2, 3, 1] = _
  have data : clearDecompressData (onePixelCall residualByteCount) emptyCaches 0
      [residualByteCount, 0, 0, 0, 0, 0, 0, 0, 0, 0, 0, 0, 1, 2, 3, 1] =
      (clearSections (onePixelCall residualByteCount) emptyCaches
        (leValue [residualByteCount, 0, 0, 0]) 0 0
        [1, 2, 3, 1]).bind fun r => some (⟨r.1, emptyCaches.glyphCache⟩, some r.2) := rfl
  rw [data, count, sections]
  rfl

/-- The theorem at a message that declares its four bytes. -/
theorem clear_sections_exact_one_pixel :
    (clearDecompress (onePixelCall 4) 0 emptyCaches).2 = some (emptyCaches, some (onePixelPayload 4)) ∧
      ((onePixelPayload 4).Exact ↔ SectionsWhole (onePixelCall 4) emptyCaches 4 0 0 [1, 2, 3, 1]) :=
  have acc := @onePixelCall_accepted 4 (by decide) (by decide)
  ⟨acc, clear_sections_exact_iff (onePixelCall 4) 0 emptyCaches emptyCaches (onePixelPayload 4) acc⟩

/-- A residual section that declares one byte takes four, and the message is accepted. -/
theorem clear_section_not_exact : ∃ call caches caches' payload,
    (clearDecompress call clearContextReset caches).2 = some (caches', some payload) ∧
    ¬payload.Exact := by
  refine ⟨onePixelCall 1, emptyCaches, emptyCaches, onePixelPayload 1, ?_, ?_⟩
  · exact @onePixelCall_accepted 1 (by decide) (by decide)
  intro exact
  exact absurd exact.residual (by decide)

/-! ## Sequence numbers -/

abbrev ClearStep := ClearCall × ClearCaches

def clearAccepts (expected : Nat) (step : ClearStep) : Option UInt8 :=
  if (clearDecompress step.1 expected step.2).2.isSome then (clearHeader step.1).map (·.2.1) else none

/-- Of two calls in a row that succeed, the second carries the next number. -/
def SequenceEnforced : Nat → List ClearStep → Prop
  | expected, first :: second :: steps =>
    (∀ m n, clearAccepts expected first = some m →
      clearAccepts (clearDecompress first.1 expected first.2).1 second = some n →
        n.toNat = (m.toNat + 1) % 256) ∧
    SequenceEnforced (clearDecompress first.1 expected first.2).1 (second :: steps)
  | _, _ => True

def clearDecodes (step : ClearStep) : Option UInt8 :=
  (clearHeader step.1).bind fun (glyphFlags, seqNumber, bytes) =>
    (clearDecompressData step.1 step.2 glyphFlags bytes).map fun _ => seqNumber

/-- A message that carries 255 in order is followed by one that carries zero, unless one of the two
does not decode. -/
def WrapsToZero : Nat → List ClearStep → Prop
  | expected, first :: second :: steps =>
    (expected = 0 ∨ expected = 255 → clearDecodes first = some 255 →
      ∀ n, clearDecodes second = some n → n = 0) ∧
    WrapsToZero (clearDecompress first.1 expected first.2).1 (second :: steps)
  | _, _ => True

variable {expected : Nat} {step : ClearStep}

theorem clearAccepts_eq_some {n : UInt8} :
    clearAccepts expected step = some n ↔ clearDecodes step = some n ∧
    (expected = 0 ∨ n.toNat = expected) := by
  have inOrd (num : UInt8) :
      num.toNat = clearExpected expected num ↔ expected = 0 ∨ num.toNat = expected := by
    unfold clearExpected
    split
    next adopted => exact iff_of_true rfl (.inl adopted.1)
    next kept =>
      constructor
      · exact .inr
      rintro (zero | same)
      · have : num = 0 := by
          by_contra other
          exact kept ⟨zero, other⟩
        rw [this, zero]
        rfl
      · exact same
  cases header : clearHeader step.1 with
  | none => simp [clearAccepts, clearDecodes, clearDecompress, header]
  | some parts =>
    obtain ⟨glyphFlags, seqNum, bytes⟩ := parts
    have res : (clearDecompress step.1 expected step.2).2 =
        if expected = 0 ∨ seqNum.toNat = expected then clearDecompressData step.1 step.2 glyphFlags bytes
        else none := by
      simp only [clearDecompress, header, ← inOrd]
      split <;> simp_all
    rw [clearAccepts, clearDecodes, res, header]
    dsimp only [Option.bind_some]
    split
    next acc =>
      cases clearDecompressData step.1 step.2 glyphFlags bytes with
      | none => simp
      | some res =>
        simp only [Option.isSome_some, if_true, Option.map_some, Option.some_inj]
        constructor
        · rintro rfl
          exact ⟨rfl, acc⟩
        · exact And.left
    next rejected =>
      refine iff_of_false (by simp) ?_
      rintro ⟨decodes, acc⟩
      obtain ⟨_, -, rfl⟩ := Option.map_eq_some_iff.mp decodes
      exact rejected acc

theorem expected_after {m : UInt8} (acc : clearAccepts expected step = some m) :
    (clearDecompress step.1 expected step.2).1 = (m.toNat + 1) % 256 := by
  unfold clearAccepts at acc
  split at acc
  next succeeded =>
    obtain ⟨_, succeeded⟩ := Option.isSome_iff_exists.mp succeeded
    obtain ⟨_, _, _, header, same, -⟩ := clearDecompress_accepts succeeded
    rw [header] at acc
    cases acc
    simp only [clearDecompress, header, same, ne_eq, not_true_eq_false, if_false]
  next => cases acc

/-- In every run after a reset, the numbers are enforced exactly if no message behind 255 carries
anything but zero: the expected number zero stands for any number. -/
theorem clear_sequence_enforced_iff (steps : List ClearStep) :
    SequenceEnforced clearContextReset steps ↔ WrapsToZero clearContextReset steps := by
  generalize clearContextReset = expected
  induction steps generalizing expected with
  | nil => exact Iff.rfl
  | cons fst steps ih =>
    cases steps with
    | nil => exact Iff.rfl
    | cons _ steps =>
      refine and_congr ?_ (ih _)
      constructor
      · intro enforced wraps last n decodes
        have acc : clearAccepts expected fst = some 255 :=
          clearAccepts_eq_some.mpr ⟨last, wraps.imp_right Eq.symm⟩
        have zero : (clearDecompress fst.1 expected fst.2).1 = 0 := expected_after acc
        have next := enforced 255 n acc (clearAccepts_eq_some.mpr ⟨decodes, .inl zero⟩)
        exact UInt8.toNat_inj.mp next
      intro wraps m n acc next
      rw [expected_after acc] at next
      obtain ⟨decodesFst, ordered⟩ := clearAccepts_eq_some.mp acc
      obtain ⟨decodesSecond, zero | same⟩ := clearAccepts_eq_some.mp next
      · have last : m = 255 := by
          have := m.toNat_lt
          exact UInt8.toNat_inj.mp (show m.toNat = 255 by omega)
        subst last
        rw [wraps (ordered.imp_right Eq.symm) decodesFst n decodesSecond]
        rfl
      · exact same

def glyphHitCall (seqNumber : UInt8) : ClearCall :=
  { onePixelCall 0 with pSrcData := [3, seqNumber, 0, 0], fits := by simp }

/-- After the number 255 the number 7 is accepted. -/
theorem clear_sequence_not_enforced : ∃ steps, ¬SequenceEnforced clearContextReset steps := by
  refine ⟨[(glyphHitCall 255, ⟨emptyCaches.bars, fun _ => ⟨1, 1⟩⟩),
    (glyphHitCall 7, ⟨emptyCaches.bars, fun _ => ⟨1, 1⟩⟩)], ?_⟩
  intro enforced
  exact absurd (enforced.1 255 7 rfl rfl) (by decide)

end KvmServer.Codec
