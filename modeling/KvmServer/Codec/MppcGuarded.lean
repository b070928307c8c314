import KvmServer.Codec.MppcDecoder
import KvmServer.Lib.Guarded
import KvmServer.Lib.Session

/-! # The accesses of `mppc_decompress` to the history

`mppc_decompress` with every access to `HistoryBuffer` checked.  The source of a copy is taken
modulo the size of the history but then runs on linearly, so it can run over its end. -/

namespace KvmServer.Codec
open Lib

/-! ## The guarded decompressor -/

def mppcGuardedStep (compressionLevel historyBufferSize : Nat) (s : MppcDecoder) :
    Except Fault (Except (Int × WBitStream) MppcDecoder) :=
  let accumulator := s.bs.accumulator
  let historyBufferEnd := historyBufferSize - 1
  if s.historyPtr > historyBufferEnd then .ok (.error (-1004, s.bs))
  else if accumulator &&& 0x80000000 = 0x00000000 then do
    let literal := (accumulator &&& 0x7F000000) >>> 24
    let historyBuffer ← writeAt historyBufferSize s.historyBuffer s.historyPtr (UInt8.ofNat literal)
    return .ok ⟨bitStreamShift s.bs 8, historyBuffer, s.historyPtr + 1⟩
  else if accumulator &&& 0xC0000000 = 0x80000000 then do
    let literal := ((accumulator &&& 0x3F800000) >>> 23) + 0x80
    let historyBuffer ← writeAt historyBufferSize s.historyBuffer s.historyPtr (UInt8.ofNat literal)
    return .ok ⟨bitStreamShift s.bs 9, historyBuffer, s.historyPtr + 1⟩
  else
    match readRow (copyOffsetDecodeRows compressionLevel) s.bs with
    | none => .ok (.error (if compressionLevel ≠ 0 then -1001 else -1002, s.bs))
    | some (copyOffset, bs) =>
      match readRow (lengthOfMatchDecodeRows compressionLevel) bs with
      | none => .ok (.error (-1003, bs))
      | some (lengthOfMatch, bs) =>
        if s.historyPtr + lengthOfMatch - 1 > historyBufferEnd then .ok (.error (-1005, bs))
        else do
          let srcPtr := (s.historyPtr + 2 ^ 64 - copyOffset) &&&
            (if compressionLevel ≠ 0 then 0xFFFF else 0x1FFF)
          let historyBuffer ← copyAt historyBufferSize s.historyBuffer s.historyPtr srcPtr lengthOfMatch
          return .ok ⟨bs, historyBuffer, s.historyPtr + lengthOfMatch⟩

def mppcGuardedLoop (compressionLevel historyBufferSize : Nat) :
    Nat → MppcDecoder → Except Fault (MppcDecoder × Int)
  | 0, _ => .error .endless
  | fuel + 1, s =>
    if 8 ≤ sub32 s.bs.length s.bs.position then do
      match ← mppcGuardedStep compressionLevel historyBufferSize s with
      | .error (code, bs) => return ({ s with bs := bs }, code)
      | .ok s' => mppcGuardedLoop compressionLevel historyBufferSize fuel s'
    else .ok (s, 1)

variable (mppc : MppcContext)

def mppcGuardedFlags (flags : Nat) : Except Fault MppcContext :=
  let mppc :=
    if flags &&& PACKET_AT_FRONT ≠ 0 then { mppc with historyOffset := 0, historyPtr := 0 } else mppc
  if flags &&& PACKET_FLUSHED ≠ 0 then do
    let historyBuffer ← clearAt mppc.historyBufferSize mppc.historyBufferSize mppc.historyBuffer
    return { mppc with historyOffset := 0, historyPtr := 0, historyBuffer := historyBuffer }
  else .ok mppc

def mppcGuardedHistory : Except Fault MppcDecompressed := do
  let result ← mppcGuardedLoop mppc.compressionLevel mppc.historyBufferSize
    (mppc.historyBufferSize + 1) ⟨mppc.bs, mppc.historyBuffer, mppc.historyPtr⟩
  if result.2 = 1 then
    return {
      mppc := { mppc with
        bs := result.1.bs
        historyBuffer := result.1.historyBuffer
        historyPtr := result.1.historyPtr }
      status := 1
      dstData := block result.1.historyBuffer mppc.historyPtr (result.1.historyPtr - mppc.historyPtr) }
  else
    return {
      mppc := { mppc with bs := result.1.bs, historyBuffer := result.1.historyBuffer }
      status := result.2
      dstData := [] }

def mppcGuardedDecompress (pSrcData : List UInt8) (flags : Nat) : Except Fault MppcDecompressed := do
  let bs := bitStreamFetch (bitStreamAttach mppc.bs (listMem 0 pSrcData) pSrcData.length)
  let mppc ← mppcGuardedFlags { mppc with bs := bs } flags
  if flags &&& PACKET_COMPRESSED = 0 then return { mppc := mppc, status := 1, dstData := pSrcData }
  else mppcGuardedHistory mppc

/-! ## The matches of a packet -/

inductive MppcItem where
  | literal
  | copy (copyOffset lengthOfMatch : Nat)
  | invalid

def mppcItem (compressionLevel : Nat) (bits : List Bool) : MppcItem × Nat :=
  if msbPeek bits 1 = 0 then (.literal, 8)
  else if msbPeek bits 2 = 2 then (.literal, 9)
  else
    match (copyOffsetTable compressionLevel).read bits with
    | none => (.invalid, 0)
    | some (copyOffset, n) =>
      match (lengthOfMatchTable compressionLevel).read (bits.drop n) with
      | none => (.invalid, 0)
      | some (lengthOfMatch, m) => (.copy copyOffset lengthOfMatch, n + m)

structure MppcMatch where
  (historyPtr copyOffset lengthOfMatch : Nat)

/-- Going through the bits from `position` on, with the next byte at `p` of the history, comes to
the match.  Lengths of bit strings are 32-bit numbers. -/
inductive ComesTo (compressionLevel : Nat) (bits : List Bool) (m : MppcMatch) : Nat → Nat → Prop where
  | literal {p position n : Nat} :
    8 ≤ sub32 (bits.length % 2 ^ 32) position → p < mppcHistorySize compressionLevel →
    mppcItem compressionLevel (bits.drop position) = (.literal, n) →
    ComesTo compressionLevel bits m (p + 1) (position + n) → ComesTo compressionLevel bits m p position
  | here {position n : Nat} :
    8 ≤ sub32 (bits.length % 2 ^ 32) position →
      m.historyPtr + m.lengthOfMatch ≤ mppcHistorySize compressionLevel →
    mppcItem compressionLevel (bits.drop position) = (.copy m.copyOffset m.lengthOfMatch, n) →
    ComesTo compressionLevel bits m m.historyPtr position
  | copy {p position copyOffset lengthOfMatch n : Nat} :
    8 ≤ sub32 (bits.length % 2 ^ 32) position → p + lengthOfMatch ≤ mppcHistorySize compressionLevel →
    mppcItem compressionLevel (bits.drop position) = (.copy copyOffset lengthOfMatch, n) →
    ComesTo compressionLevel bits m (p + lengthOfMatch) (position + n) →
      ComesTo compressionLevel bits m p position

def MppcMatch.Inside (size : Nat) (m : MppcMatch) : Prop :=
  m.copyOffset % size ≤ m.historyPtr ∨ m.historyPtr + m.lengthOfMatch ≤ m.copyOffset % size

instance (size : Nat) (m : MppcMatch) : Decidable (m.Inside size) := inferInstanceAs (Decidable (_ ∨ _))

/-! ## One round -/

variable {level copyOff lengthOfMatch k : Nat} {bits : List Bool} {mppc : MppcContext} {n : Nat}

theorem copyOffset_read (got : (copyOffsetTable level).read bits = some (copyOff, n)) :
    copyOff < 2 ^ 17 ∧ n ≤ 19 := by
  have bounds : ∀ c ∈ (copyOffsetTable level).words, c.base + 2 ^ c.extra ≤ 2 ^ 17 ∧
      c.width + c.extra ≤ 19 := by
    unfold copyOffsetTable
    dsimp only
    split <;> decide
  obtain ⟨c, mem, ⟨-, up⟩, rfl⟩ := CodeTable.read_some got
  exact ⟨lt_of_lt_of_le up (bounds c mem).1, (bounds c mem).2⟩

theorem lengthOfMatch_read (got : (lengthOfMatchTable level).read bits = some (lengthOfMatch, n)) :
    3 ≤ lengthOfMatch ∧ n ≤ 30 := by
  have bounds : ∀ c ∈ (lengthOfMatchTable level).words, 3 ≤ c.base ∧ c.width + c.extra ≤ 30 := by
    unfold lengthOfMatchTable
    dsimp only
    split <;> decide
  obtain ⟨c, mem, ⟨lo, -⟩, rfl⟩ := CodeTable.read_some got
  exact ⟨le_trans (bounds c mem).1 lo, (bounds c mem).2⟩

theorem mppcItem_copy (item : mppcItem level bits = (.copy copyOff lengthOfMatch, k)) :
    (¬msbPeek bits 1 = 0 ∧ ¬msbPeek bits 2 = 2) ∧ ∃ n m,
    (copyOffsetTable level).read bits = some (copyOff, n) ∧
        (lengthOfMatchTable level).read (bits.drop n) = some (lengthOfMatch, m) ∧ k = n + m := by
  unfold mppcItem at item
  split at item
  · cases item
  split at item
  · cases item
  rename_i notLow notHigh
  split at item
  · cases item
  rename_i offRead
  split at item
  · cases item
  rename_i lenRead
  cases item
  exact ⟨⟨notLow, notHigh⟩, _, _, offRead, lenRead, rfl⟩

theorem mppcItem_invalid (item : mppcItem level bits = (.invalid, k)) :
    (¬msbPeek bits 1 = 0 ∧ ¬msbPeek bits 2 = 2) ∧ ((copyOffsetTable level).read bits = none ∨
        ∃ copyOff n, (copyOffsetTable level).read bits = some (copyOff, n) ∧
          (lengthOfMatchTable level).read (bits.drop n) = none) := by
  unfold mppcItem at item
  split at item
  · cases item
  split at item
  · cases item
  rename_i notLow notHigh
  split at item
  · rename_i offRead
    exact ⟨⟨notLow, notHigh⟩, .inl offRead⟩
  rename_i offRead
  split at item
  · rename_i lenRead
    exact ⟨⟨notLow, notHigh⟩, .inr ⟨_, _, offRead, lenRead⟩⟩
  · cases item

theorem three_le_of_mppcItem (item : mppcItem level bits = (.copy copyOff lengthOfMatch, k)) :
    3 ≤ lengthOfMatch := by
  obtain ⟨-, n, m, -, lenRead, -⟩ := mppcItem_copy item
  exact (lengthOfMatch_read lenRead).1

theorem copySource_mod (level : Nat) {p copyOff : Nat} (lt : copyOff < 2 ^ 17) :
    ((p + 2 ^ 64 - copyOff) &&& (if level ≠ 0 then 0xFFFF else 0x1FFF)) =
      (p + mppcHistorySize level - copyOff % mppcHistorySize level) % mppcHistorySize level := by
  unfold mppcHistorySize
  by_cases rdp5 : level ≠ 0
  · simp only [if_pos rdp5]
    rw [show (0xFFFF : Nat) = 2 ^ 16 - 1 by rfl, Nat.and_two_pow_sub_one_eq_mod]
    omega
  simp only [if_neg rdp5]
  rw [show (0x1FFF : Nat) = 2 ^ 13 - 1 by rfl, Nat.and_two_pow_sub_one_eq_mod]
  omega

theorem sourceEnd_le_iff {size p : Nat} (inside : p < size) (fits : p + lengthOfMatch ≤ size) :
    (p + size - copyOff % size) % size + lengthOfMatch ≤ size ↔
    MppcMatch.Inside size ⟨p, copyOff, lengthOfMatch⟩ := by
  unfold MppcMatch.Inside
  dsimp only
  by_cases past : copyOff % size ≤ p
  · have pre : p + size - copyOff % size = p - copyOff % size + size := by omega
    rw [pre, Nat.add_mod_right, Nat.mod_eq_of_lt (by omega)]
    omega
  rw [Nat.mod_eq_of_lt (show p + size - copyOff % size < size by omega)]
  omega

section Step
variable {level : Nat} {bytes : List UInt8} {s : MppcDecoder} {rest : List Bool}

structure MovesOn (compressionLevel : Nat) (bytes : List UInt8) (rest : List Bool) (s : MppcDecoder)
    (advance n : Nat) (s' : MppcDecoder) : Prop where
  guarded : mppcGuardedStep compressionLevel (mppcHistorySize compressionLevel) s = .ok (.ok s')
  plain : mppcDecompressStep compressionLevel (mppcHistorySize compressionLevel) s = .ok s'
  pointer : s'.historyPtr = s.historyPtr + advance
  window : Window bytes s'.bs (rest.drop n)
  position : s'.bs.position = s.bs.position + n
  short : n ≤ 49

structure Stops (compressionLevel : Nat) (s : MppcDecoder) (e : Int × WBitStream) : Prop where
  guarded : mppcGuardedStep compressionLevel (mppcHistorySize compressionLevel) s = .ok (.error e)
  plain : mppcDecompressStep compressionLevel (mppcHistorySize compressionLevel) s = .error e

theorem stops_full (full : mppcHistorySize level ≤ s.historyPtr) : Stops level s (-1004, s.bs) := by
  have pos : 0 < mppcHistorySize level := by unfold mppcHistorySize; split <;> omega
  have past : s.historyPtr > mppcHistorySize level - 1 := by omega
  constructor <;> simp only [mppcGuardedStep, mppcDecompressStep, if_pos past]

section
variable (win : Window bytes s.bs rest)
include win

theorem movesOn_literal (room : s.bs.position + 49 < 2 ^ 32)
    (inside : s.historyPtr < mppcHistorySize level) (item : mppcItem level rest = (.literal, n)) :
    ∃ s', MovesOn level bytes rest s 1 n s' := by
  have pre : ¬s.historyPtr > mppcHistorySize level - 1 := by omega
  have tests := accumulator_tests rest
  rw [← win.accumulator_eq] at tests
  unfold mppcItem at item
  split at item
  · rename_i low
    cases item
    have shf := win.shift (show 8 < 32 by decide) (by omega)
    have position := bitStreamShift_position s.bs (show 8 < 32 by decide) (by omega)
    refine ⟨⟨bitStreamShift s.bs 8, store s.historyBuffer s.historyPtr (UInt8.ofNat
      ((s.bs.accumulator &&& 0x7F000000) >>> 24)), s.historyPtr + 1⟩, ?_, ?_, rfl, shf, position, by
        decide⟩
    · unfold mppcGuardedStep
      simp only [if_neg pre, if_pos (tests.1.mpr low), writeAt_ok inside]
      rfl
    unfold mppcDecompressStep
    simp only [if_neg pre, if_pos (tests.1.mpr low)]
  split at item
  · rename_i notLow high
    cases item
    have shf := win.shift (show 9 < 32 by decide) (by omega)
    have position := bitStreamShift_position s.bs (show 9 < 32 by decide) (by omega)
    refine ⟨⟨bitStreamShift s.bs 9, store s.historyBuffer s.historyPtr (UInt8.ofNat
      (((s.bs.accumulator &&& 0x3F800000) >>> 23) + 0x80)), s.historyPtr + 1⟩,
        ?_, ?_, rfl, shf, position, by decide⟩
    · unfold mppcGuardedStep
      simp only [if_neg pre, if_neg (mt tests.1.mp notLow), if_pos (tests.2.mpr high), writeAt_ok inside]
      rfl
    unfold mppcDecompressStep
    simp only [if_neg pre, if_neg (mt tests.1.mp notLow), if_pos (tests.2.mpr high)]
  split at item
  · cases item
  · split at item <;> cases item

theorem accumulator_of_copy (pre : ¬msbPeek rest 1 = 0 ∧ ¬msbPeek rest 2 = 2) :
    ¬s.bs.accumulator &&& 0x80000000 = 0x00000000 ∧ ¬s.bs.accumulator &&& 0xC0000000 = 0x80000000 := by
  have tests := accumulator_tests rest
  rw [← win.accumulator_eq] at tests
  exact ⟨mt tests.1.mp pre.1, mt tests.2.mp pre.2⟩

theorem stops_invalid (room : s.bs.position + 49 < 2 ^ 32)
    (inside : s.historyPtr < mppcHistorySize level)
    (item : mppcItem level rest = (.invalid, k)) : ∃ e, Stops level s e := by
  have pre : ¬s.historyPtr > mppcHistorySize level - 1 := by omega
  obtain ⟨front, tbls⟩ := mppcItem_invalid item
  obtain ⟨notLow, notHigh⟩ := accumulator_of_copy win front
  have readOff := readRow_eq (copyOffset_decodeRows level) win
  cases tbls with
  | inl none =>
    rw [none] at readOff
    refine ⟨(if level ≠ 0 then -1001 else -1002, s.bs), ?_, ?_⟩ <;>
      simp only [mppcGuardedStep, mppcDecompressStep, if_neg pre, if_neg notLow,
        if_neg notHigh, readOff, Option.map_none]
  | inr some =>
    obtain ⟨_, n, offRead, lenRead⟩ := some
    have short := (copyOffset_read offRead).2
    have readLen :=
      readRow_eq (lengthOfMatch_decodeRows level) (win.shift (show n < 32 by omega) (by omega))
    rw [offRead] at readOff
    rw [lenRead] at readLen
    refine ⟨(-1003, bitStreamShift s.bs n), ?_, ?_⟩ <;>
      simp only [mppcGuardedStep, mppcDecompressStep, if_neg pre, if_neg notLow, if_neg notHigh, readOff,
        readLen, Option.map_some, Option.map_none]

theorem copy_cases (room : s.bs.position + 49 < 2 ^ 32)
    (inside : s.historyPtr < mppcHistorySize level)
    (item : mppcItem level rest = (.copy copyOff lengthOfMatch, k)) :
    if s.historyPtr + lengthOfMatch ≤ mppcHistorySize level then
      if MppcMatch.Inside (mppcHistorySize level) ⟨s.historyPtr, copyOff, lengthOfMatch⟩ then
        ∃ s', MovesOn level bytes rest s lengthOfMatch k s'
      else mppcGuardedStep level (mppcHistorySize level) s = .error .outside
    else ∃ e, Stops level s e := by
  have pre : ¬s.historyPtr > mppcHistorySize level - 1 := by omega
  have ge := three_le_of_mppcItem item
  obtain ⟨front, n, m, offRead, lenRead, rfl⟩ := mppcItem_copy item
  obtain ⟨notLow, notHigh⟩ := accumulator_of_copy win front
  obtain ⟨offLt, _⟩ := copyOffset_read offRead
  have lenSh := (lengthOfMatch_read lenRead).2
  have readOff := readRow_eq (copyOffset_decodeRows level) win
  have shf := win.shift (show n < 32 by omega) (by omega)
  have position := bitStreamShift_position s.bs (show n < 32 by omega) (by omega)
  have readLen := readRow_eq (lengthOfMatch_decodeRows level) shf
  rw [offRead] at readOff
  rw [lenRead] at readLen
  have src := @copySource_mod level s.historyPtr _ offLt
  split
  · rename_i fits
    have notOver : ¬s.historyPtr + lengthOfMatch - 1 > mppcHistorySize level - 1 := by omega
    split
    · rename_i srcInside
      refine ⟨⟨bitStreamShift (bitStreamShift s.bs n) m, lzCopy s.historyBuffer s.historyPtr
        ((s.historyPtr + mppcHistorySize level - copyOff % mppcHistorySize level) %
          mppcHistorySize level) lengthOfMatch,
        s.historyPtr + lengthOfMatch⟩, ?_, ?_, rfl, ?_, ?_, by omega⟩
      · unfold mppcGuardedStep
        simp only [if_neg pre, if_neg notLow, if_neg notHigh, readOff, readLen,
          Option.map_some, if_neg notOver, src]
        rw [copyAt_ok ((sourceEnd_le_iff inside fits).mpr srcInside) fits]
        rfl
      · unfold mppcDecompressStep
        simp only [if_neg pre, if_neg notLow, if_neg notHigh, readOff, readLen,
          Option.map_some, if_neg notOver, src]
      · rw [← List.drop_drop]
        exact shf.shift (by omega) (by omega)
      · dsimp only
        rw [bitStreamShift_position _ (by omega) (by omega)]
        omega
    rename_i srcOutside
    unfold mppcGuardedStep
    simp only [if_neg pre, if_neg notLow, if_neg notHigh, readOff, readLen,
      Option.map_some, if_neg notOver, src]
    rw [copyAt_outside (by omega) (not_le.mp (mt (sourceEnd_le_iff inside fits).mp srcOutside)) fits]
    rfl
  · have past : s.historyPtr + lengthOfMatch - 1 > mppcHistorySize level - 1 := by omega
    refine ⟨(-1005, bitStreamShift (bitStreamShift s.bs n) m), ?_, ?_⟩ <;>
      simp only [mppcGuardedStep, mppcDecompressStep, if_neg pre, if_neg notLow, if_neg notHigh, readOff,
        readLen, Option.map_some, if_pos past]

end

end Step

/-! ## The loop -/

section ComesTo
variable {level p position : Nat} {bits : List Bool} {m : MppcMatch}

theorem ComesTo.running (comes : ComesTo level bits m p position) :
    8 ≤ sub32 (bits.length % 2 ^ 32) position ∧ p < mppcHistorySize level := by
  cases comes with
  | literal run inside _ _ => exact ⟨run, inside⟩
  | here run fits item | copy run fits item _ =>
    have ge := three_le_of_mppcItem item
    exact ⟨run, by omega⟩

theorem comesTo_literal_iff (run : 8 ≤ sub32 (bits.length % 2 ^ 32) position)
    (inside : p < mppcHistorySize level)
    (item : mppcItem level (bits.drop position) = (.literal, n)) :
    ComesTo level bits m p position ↔ ComesTo level bits m (p + 1) (position + n) := by
  constructor
  · intro comes
    cases comes with
    | literal _ _ item' later =>
      obtain ⟨-, rfl⟩ := Prod.mk.inj (item.symm.trans item')
      exact later
    | here _ _ item' | copy _ _ item' _ => cases item.symm.trans item'
  · exact .literal run inside item

theorem comesTo_copy_iff (run : 8 ≤ sub32 (bits.length % 2 ^ 32) position)
    (fits : p + lengthOfMatch ≤ mppcHistorySize level)
    (item : mppcItem level (bits.drop position) = (.copy copyOff lengthOfMatch, n)) :
    ComesTo level bits m p position ↔
      m = ⟨p, copyOff, lengthOfMatch⟩ ∨ ComesTo level bits m (p + lengthOfMatch) (position + n) := by
  constructor
  · intro comes
    cases comes with
    | literal _ _ item' _ => cases item.symm.trans item'
    | here _ _ item' =>
      obtain ⟨rfl, rfl⟩ := MppcItem.copy.inj (Prod.mk.inj (item.symm.trans item')).1
      exact .inl rfl
    | copy _ _ item' later =>
      obtain ⟨same, rfl⟩ := Prod.mk.inj (item.symm.trans item')
      obtain ⟨rfl, rfl⟩ := MppcItem.copy.inj same
      exact .inr later
  · rintro (rfl | later)
    · exact .here run fits item
    · exact .copy run fits item later

theorem not_comesTo_of_invalid (item : mppcItem level (bits.drop position) = (.invalid, n)) :
    ¬ComesTo level bits m p position := by
  intro comes
  cases comes with
  | literal _ _ item' _ | here _ _ item' | copy _ _ item' _ => cases item.symm.trans item'

theorem not_comesTo_of_refused (beyond : ¬p + lengthOfMatch ≤ mppcHistorySize level)
    (item : mppcItem level (bits.drop position) = (.copy copyOff lengthOfMatch, n)) :
    ¬ComesTo level bits m p position := by
  intro comes
  cases comes with
  | literal _ _ item' _ => cases item.symm.trans item'
  | here _ fits item' | copy _ fits item' _ =>
    obtain ⟨rfl, rfl⟩ := MppcItem.copy.inj (Prod.mk.inj (item.symm.trans item')).1
    exact beyond fits

end ComesTo

section Loop
variable {lvl : Nat} {bytes : List UInt8}

/-- The loop stays inside exactly if all matches it comes to do, and it then does what the unguarded
loop does. -/
structure LoopExact (compressionLevel : Nat) (bytes : List UInt8) (fuel : Nat) (s : MppcDecoder) :
    Prop where
  inside_iff :
    (∃ result, mppcGuardedLoop compressionLevel (mppcHistorySize compressionLevel) fuel s = .ok result) ↔
    ∀ m, ComesTo compressionLevel (msbByteBits bytes) m s.historyPtr s.bs.position →
      m.Inside (mppcHistorySize compressionLevel)
  same : ∀ result,
    mppcGuardedLoop compressionLevel (mppcHistorySize compressionLevel) fuel s = .ok result →
    mppcDecompressLoop compressionLevel (mppcHistorySize compressionLevel) fuel s = result ∧
      result.1.historyPtr ≤ mppcHistorySize compressionLevel

variable {s : MppcDecoder} {rest : List Bool} {fuel : Nat}

theorem loopExact_of_result {res : MppcDecoder × Int}
    (guarded : mppcGuardedLoop lvl (mppcHistorySize lvl) fuel s = .ok res)
    (plain : mppcDecompressLoop lvl (mppcHistorySize lvl) fuel s = res)
    (ptr : res.1.historyPtr ≤ mppcHistorySize lvl)
    (none : ∀ m, ¬ComesTo lvl (msbByteBits bytes) m s.historyPtr s.bs.position) :
    LoopExact lvl bytes fuel s := by
  constructor
  · exact iff_of_true ⟨res, guarded⟩ fun m comes => absurd comes (none m)
  intro _ got
  rw [guarded] at got
  cases got
  exact ⟨plain, ptr⟩

theorem loopExact_of_stops (run : 8 ≤ sub32 s.bs.length s.bs.position) {e : Int × WBitStream}
    (stops : Stops lvl s e) (ptr : s.historyPtr ≤ mppcHistorySize lvl)
    (none : ∀ m, ¬ComesTo lvl (msbByteBits bytes) m s.historyPtr s.bs.position) :
    LoopExact lvl bytes (fuel + 1) s := by
  apply @loopExact_of_result _ _ _ _ ({ s with bs := e.2 }, e.1)
  · rw [mppcGuardedLoop, if_pos run, stops.guarded]
    rfl
  · rw [mppcDecompressLoop, if_pos run, stops.plain]
  · exact ptr
  · exact none

theorem loopExact_of_movesOn (run : 8 ≤ sub32 s.bs.length s.bs.position)
    {advance : Nat} {s' : MppcDecoder}
    (moves : MovesOn lvl bytes rest s advance n s') (later : LoopExact lvl bytes fuel s')
    (next : (∀ m, ComesTo lvl (msbByteBits bytes) m s.historyPtr s.bs.position →
      m.Inside (mppcHistorySize lvl)) ↔
      ∀ m, ComesTo lvl (msbByteBits bytes) m (s.historyPtr + advance) (s.bs.position + n) →
        m.Inside (mppcHistorySize lvl)) : LoopExact lvl bytes (fuel + 1) s := by
  have guarded : mppcGuardedLoop lvl (mppcHistorySize lvl) (fuel + 1) s =
      mppcGuardedLoop lvl (mppcHistorySize lvl) fuel s' := by
    rw [mppcGuardedLoop, if_pos run, moves.guarded]
    rfl
  have plain : mppcDecompressLoop lvl (mppcHistorySize lvl) (fuel + 1) s =
      mppcDecompressLoop lvl (mppcHistorySize lvl) fuel s' := by
    rw [mppcDecompressLoop, if_pos run, moves.plain]
  constructor
  · rw [guarded, next, ← moves.pointer, ← moves.position]
    exact later.inside_iff
  rw [guarded, plain]
  exact later.same

theorem loopExact_copy (window : Window bytes s.bs rest) (run : 8 ≤ sub32 s.bs.length s.bs.position)
    (room : s.bs.position + 49 < 2 ^ 32) (inside : s.historyPtr < mppcHistorySize lvl)
    (item : mppcItem lvl rest = (.copy copyOff lengthOfMatch, n))
    (stream : 8 ≤ sub32 ((msbByteBits bytes).length % 2 ^ 32) s.bs.position)
    (later : s.historyPtr + lengthOfMatch ≤ mppcHistorySize lvl → ∀ s',
      MovesOn lvl bytes rest s lengthOfMatch n s' → LoopExact lvl bytes fuel s') : LoopExact
        lvl bytes (fuel + 1) s := by
  have round := copy_cases window room inside item
  rw [window.rest_eq] at item
  split at round
  · rename_i fits
    split at round
    · rename_i srcInside
      obtain ⟨s', moves⟩ := round
      apply loopExact_of_movesOn run moves (later fits s' moves)
      simp only [comesTo_copy_iff stream fits item]
      constructor
      · exact fun all m comes => all m (.inr comes)
      rintro all m (rfl | comes)
      · exact srcInside
      · exact all m comes
    rename_i srcOutside
    have guarded : mppcGuardedLoop lvl (mppcHistorySize lvl) (fuel + 1) s = .error .outside := by
      rw [mppcGuardedLoop, if_pos run, round]
      rfl
    constructor
    · rw [guarded]
      apply iff_of_false
      · rintro ⟨res, got⟩
        cases got
      · exact fun all => srcOutside (all _ ((comesTo_copy_iff stream fits item).mpr (.inl rfl)))
    intro res got
    rw [guarded] at got
    cases got
  · rename_i beyond
    obtain ⟨e, stops⟩ := round
    exact loopExact_of_stops run stops (le_of_lt inside) fun m => not_comesTo_of_refused beyond item

/-- Every round moves `HistoryPtr`, and the position in the packet by at most 49 bits: neither the
rounds nor the 32 bits of the position run out. -/
theorem mppcGuardedLoop_exact (window : Window bytes s.bs rest)
    (ptr : s.historyPtr ≤ mppcHistorySize lvl) (early : s.bs.position ≤ 49 * s.historyPtr)
    (enough : mppcHistorySize lvl < s.historyPtr + fuel) : LoopExact lvl bytes fuel s := by
  induction fuel generalizing s rest with
  | zero => omega
  | succ fuel ih =>
    have le : mppcHistorySize lvl ≤ 65536 := by unfold mppcHistorySize; split <;> omega
    have room : s.bs.position + 49 < 2 ^ 32 := by omega
    have len : (msbByteBits bytes).length % 2 ^ 32 = s.bs.length := by
      rw [msbByteBits_length, window.length_eq]
    have later : ∀ advance n s', 0 < advance → s.historyPtr + advance ≤ mppcHistorySize lvl →
        MovesOn lvl bytes rest s advance n s' → LoopExact lvl bytes fuel s' := by
      intro advance n s' _ fits moves
      have short := moves.short
      apply ih moves.window
      · rw [moves.pointer]
        exact fits
      · rw [moves.pointer, moves.position]
        omega
      rw [moves.pointer]
      omega
    by_cases run : 8 ≤ sub32 s.bs.length s.bs.position
    · by_cases inside : s.historyPtr < mppcHistorySize lvl
      · have stream := run
        rw [← len] at stream
        rcases item : mppcItem lvl rest with ⟨kind, n⟩
        cases kind with
        | literal =>
          obtain ⟨s', moves⟩ := movesOn_literal window room inside item
          rw [window.rest_eq] at item
          apply loopExact_of_movesOn run moves (later 1 n s' Nat.one_pos inside moves)
          simp only [comesTo_literal_iff stream inside item]
        | copy copyOff lengthOfMatch =>
          have ge := three_le_of_mppcItem item
          exact loopExact_copy window run room inside item stream fun fits s' =>
            later lengthOfMatch n s' (by omega) fits
        | invalid =>
          obtain ⟨e, stops⟩ := stops_invalid window room inside item
          rw [window.rest_eq] at item
          exact loopExact_of_stops run stops ptr fun m => not_comesTo_of_invalid item
      · exact loopExact_of_stops run (stops_full (not_lt.mp inside)) ptr fun m comes =>
          inside comes.running.2
    apply @loopExact_of_result _ _ _ _ (s, 1)
    · rw [mppcGuardedLoop, if_neg run]
    · rw [mppcDecompressLoop, if_neg run]
    · exact ptr
    intro m comes
    have stream := comes.running.1
    rw [len] at stream
    exact run stream

end Loop

/-! ## Packets -/

structure MppcInput where
  pSrcData : List UInt8
  flags : Nat

structure MppcReady (mppc : MppcContext) : Prop where
  size : mppc.historyBufferSize = mppcHistorySize mppc.compressionLevel
  pointer : mppc.historyPtr ≤ mppcHistorySize mppc.compressionLevel

def MppcMatchesInside (mppc : MppcContext) (packet : MppcInput) : Prop :=
  packet.flags &&& PACKET_COMPRESSED ≠ 0 → ∀ m,
    ComesTo mppc.compressionLevel (msbByteBits packet.pSrcData) m
      (if packet.flags &&& PACKET_AT_FRONT ≠ 0 ∨
        packet.flags &&& PACKET_FLUSHED ≠ 0 then 0 else mppc.historyPtr) 0 →
    m.Inside (mppcHistorySize mppc.compressionLevel)

theorem mppcGuardedFlags_ok (mppc : MppcContext) (flags : Nat) :
    mppcGuardedFlags mppc flags = .ok (mppcApplyFlags mppc flags) := by
  unfold mppcGuardedFlags mppcApplyFlags
  dsimp only
  split
  · rw [clearAt_ok le_rfl]
    rfl
  · rfl

theorem mppcApplyFlags_kept (mppc : MppcContext) (flags : Nat) :
    (mppcApplyFlags mppc flags).bs = mppc.bs ∧
      (mppcApplyFlags mppc flags).compressionLevel = mppc.compressionLevel ∧
      (mppcApplyFlags mppc flags).historyBufferSize = mppc.historyBufferSize ∧
      (mppcApplyFlags mppc flags).historyPtr =
        if flags &&& PACKET_AT_FRONT ≠ 0 ∨ flags &&& PACKET_FLUSHED ≠ 0 then 0 else mppc.historyPtr := by
  unfold mppcApplyFlags
  by_cases pre : flags &&& PACKET_AT_FRONT ≠ 0
  · by_cases flush : flags &&& PACKET_FLUSHED ≠ 0
    · simp only [if_pos pre, if_pos flush, if_pos (Or.inl pre), and_self]
    · simp only [if_pos pre, if_neg flush, if_pos (Or.inl pre), and_self]
  by_cases flush : flags &&& PACKET_FLUSHED ≠ 0
  · simp only [if_neg pre, if_pos flush, if_pos (Or.inr flush), and_self]
  · simp only [if_neg pre, if_neg flush, if_neg (not_or.mpr ⟨pre, flush⟩), and_self]

theorem mppcGuardedHistory_exact (ready : MppcReady mppc) {bytes : List UInt8}
    (window : Window bytes mppc.bs (msbByteBits bytes)) (st : mppc.bs.position = 0) :
    ((∃ res, mppcGuardedHistory mppc = .ok res) ↔
      ∀ m, ComesTo mppc.compressionLevel (msbByteBits bytes) m mppc.historyPtr 0 →
        m.Inside (mppcHistorySize mppc.compressionLevel)) ∧
    ∀ res, mppcGuardedHistory mppc = .ok res → mppcDecompressHistory mppc = res ∧
    MppcReady res.mppc := by
  have loop :=
    @mppcGuardedLoop_exact mppc.compressionLevel bytes ⟨mppc.bs, mppc.historyBuffer, mppc.historyPtr⟩ _
    (mppcHistorySize mppc.compressionLevel + 1) window ready.pointer (by dsimp only; omega)
      (by dsimp only; omega)
  have exact := loop.inside_iff
  have same := loop.same
  rw [← ready.size] at exact same
  rw [st] at exact
  rw [← ready.size, ← exact]
  unfold mppcGuardedHistory mppcDecompressHistory
  cases run : mppcGuardedLoop mppc.compressionLevel mppc.historyBufferSize (mppc.historyBufferSize + 1)
      ⟨mppc.bs, mppc.historyBuffer, mppc.historyPtr⟩ with
  | error e =>
    constructor
    · apply iff_of_false
      iterate 2
        · rintro ⟨res, got⟩
          cases got
    intro res got
    cases got
  | ok looped =>
    obtain ⟨plain, ptr⟩ := same looped run
    rw [plain]
    rw [ok_bind]
    split
    · rename_i done
      refine ⟨iff_of_true ⟨_, rfl⟩ ⟨_, rfl⟩, ?_⟩
      intro res got
      cases got
      exact ⟨if_pos done, ready.size, by rw [← ready.size]; exact ptr⟩
    rename_i fail
    refine ⟨iff_of_true ⟨_, rfl⟩ ⟨_, rfl⟩, ?_⟩
    intro res got
    cases got
    exact ⟨if_neg fail, ready.size, ready.pointer⟩

theorem mppcGuardedDecompress_exact (ready : MppcReady mppc) (packet : MppcInput) :
    ((∃ res, mppcGuardedDecompress mppc packet.pSrcData packet.flags = .ok res) ↔
      MppcMatchesInside mppc packet) ∧
    ∀ res, mppcGuardedDecompress mppc packet.pSrcData packet.flags = .ok res →
      mppcDecompress mppc packet.pSrcData packet.flags = res ∧ MppcReady res.mppc := by
  obtain ⟨pSrcData, flags⟩ := packet
  have window := window_attach_fetch mppc.bs pSrcData
  unfold mppcGuardedDecompress mppcDecompress MppcMatchesInside
  dsimp only
  rw [mppcGuardedFlags_ok, ok_bind]
  generalize attached :
    ({ mppc with bs := bitStreamFetch (bitStreamAttach mppc.bs (listMem 0 pSrcData) pSrcData.length) } :
    MppcContext) = fetched
  have bs :
      fetched.bs = bitStreamFetch (bitStreamAttach mppc.bs (listMem 0 pSrcData) pSrcData.length) := by
    rw [← attached]
  have level : fetched.compressionLevel = mppc.compressionLevel := by rw [← attached]
  have size : fetched.historyBufferSize = mppc.historyBufferSize := by rw [← attached]
  have ptr : fetched.historyPtr = mppc.historyPtr := by rw [← attached]
  obtain ⟨keptStream, keptLevel, keptSize, keptPtr⟩ := mppcApplyFlags_kept fetched flags
  rw [level] at keptLevel
  rw [size] at keptSize
  rw [ptr] at keptPtr
  have applied : MppcReady (mppcApplyFlags fetched flags) := by
    constructor
    · rw [keptSize, keptLevel, ready.size]
    rw [keptPtr, keptLevel]
    split
    · exact Nat.zero_le _
    · exact ready.pointer
  by_cases compressed : flags &&& PACKET_COMPRESSED = 0
  · -- nothing of the history is touched
    simp only [if_pos compressed]
    refine ⟨iff_of_true ⟨_, rfl⟩ fun not => absurd compressed not, ?_⟩
    intro res got
    cases got
    exact ⟨rfl, applied⟩
  simp only [if_neg compressed]
  rw [← keptPtr, ← keptLevel]
  have exact :=
    mppcGuardedHistory_exact applied (by rw [keptStream, bs]; exact window) (by rw [keptStream, bs]; rfl)
  refine ⟨?_, exact.2⟩
  rw [exact.1]
  exact ⟨fun all _ => all, fun all => all compressed⟩

/-! ## Sessions -/

def mppcGuardedReceive (mppc : MppcContext) (packet : MppcInput) : Except Fault MppcContext := do
  let result ← mppcGuardedDecompress mppc packet.pSrcData packet.flags
  return result.mppc

def mppcReceive (mppc : MppcContext) (packet : MppcInput) : MppcContext × MppcDecompressed :=
  let result := mppcDecompress mppc packet.pSrcData packet.flags
  (result.mppc, result)

theorem mppcReady_new (level : Nat) (cmp : Bool) : MppcReady (mppcContextNew level cmp) := by
  unfold mppcContextNew mppcSetCompressionLevel
  split
  iterate 2 exact ⟨rfl, Nat.zero_le _⟩

theorem mppcGuardedReceive_exact (ready : MppcReady mppc) (packet : MppcInput) :
    ((∃ next, mppcGuardedReceive mppc packet = .ok next) ↔ MppcMatchesInside mppc packet) ∧
    ∀ next, mppcGuardedReceive mppc packet = .ok next → (mppcReceive mppc packet).1 = next ∧
    MppcReady next := by
  obtain ⟨exact, same⟩ := mppcGuardedDecompress_exact ready packet
  rw [← exact]
  unfold mppcGuardedReceive mppcReceive
  cases run : mppcGuardedDecompress mppc packet.pSrcData packet.flags with
  | error e =>
    constructor
    · apply iff_of_false
      · rintro ⟨next, got⟩
        cases got
      rintro ⟨res, got⟩
      cases got
    intro next got
    cases got
  | ok res =>
    obtain ⟨plain, kept⟩ := same res run
    refine ⟨iff_of_true ⟨_, rfl⟩ ⟨_, rfl⟩, ?_⟩
    intro next got
    cases got
    exact ⟨by rw [plain], kept⟩

/-- A session stays inside of the history exactly if no packet comes to a match that starts before
the front of the history and runs over its end. -/
theorem mppc_session_inside_iff (compressionLevel : Nat) (compressor : Bool) (packets : List MppcInput) :
    (∃ mppc, packets.foldlM mppcGuardedReceive (mppcContextNew compressionLevel compressor) = .ok mppc) ↔
      StepsMeet mppcReceive MppcMatchesInside (mppcContextNew compressionLevel compressor) packets :=
  foldlM_ok_iff_stepsMeet (fun _ packet ready => (mppcGuardedReceive_exact ready packet).1)
    (fun _ packet next ready => (mppcGuardedReceive_exact ready packet).2 next)
    (mppcReady_new compressionLevel compressor) packets

/-- The first packet: a copy of three bytes from one byte before the front of the history, which is
its last one. -/
theorem mppc_session_not_inside :
    [(⟨[0xF8, 0x20], PACKET_COMPRESSED⟩ : MppcInput)].foldlM mppcGuardedReceive
    (mppcContextNew 1 false) = .error .outside := by
  have stopped : (match [(⟨[0xF8, 0x20], PACKET_COMPRESSED⟩ : MppcInput)].foldlM mppcGuardedReceive
      (mppcContextNew 1 false) with | .error .outside => true | _ => false) = true := by decide +kernel
  generalize [(⟨[0xF8, 0x20], PACKET_COMPRESSED⟩ : MppcInput)].foldlM mppcGuardedReceive
    (mppcContextNew 1 false) = run
    at stopped
  split at stopped
  · rfl
  · cases stopped

end KvmServer.Codec
