import KvmServer.Codec.MppcCodes

/-! # What `mppc_compress` writes

The match buffer may hold anything: a candidate is compared byte by byte with the history before it
is used.  The loop invariant says that the bits written so far spell tokens which describe the
consumed bytes. -/

namespace KvmServer.Codec
open Lib List

theorem extendMatch_spec (limit : Nat) (mem : Mem UInt8) (matchPtr histPtr len : Nat)
    (src : List UInt8) :
    ∃ xs rest, extendMatch limit mem matchPtr histPtr len src =
    (blit mem histPtr xs, len + xs.length, rest) ∧ src = xs ++ rest ∧
      Repeats mem histPtr matchPtr xs ∧ (xs ≠ [] → matchPtr + xs.length ≤ limit + 1) := by
  induction src generalizing mem matchPtr histPtr len with
  | nil => exact ⟨[], _, rfl, rfl, trivial, fun h => absurd rfl h⟩
  | cons c src ih =>
    cases src with
    | nil => exact ⟨[], _, rfl, rfl, trivial, fun h => absurd rfl h⟩
    | cons next src =>
      have step : extendMatch limit mem matchPtr histPtr len (c :: next :: src) =
          if c = mem matchPtr ∧ matchPtr ≤ limit then
            extendMatch limit (store mem histPtr c) (matchPtr + 1) (histPtr + 1) (len + 1) (next :: src)
          else (mem, len, c :: next :: src) := rfl
      rw [step]
      split
      · next same =>
        obtain ⟨xs, rest, res, source, reps, inside⟩ :=
          ih (store mem histPtr c) (matchPtr + 1) (histPtr + 1) (len + 1)
        refine ⟨c :: xs, rest, ?_, by rw [source, cons_append], ⟨same.1.symm, reps⟩, ?_⟩
        · rw [res, blit, length_cons, add_assoc, add_comm 1]
        intro _
        rw [length_cons]
        by_cases empty : xs = []
        · simp [empty]
          omega
        have := inside empty
        omega
      · exact ⟨[], _, rfl, rfl, trivial, fun h => absurd rfl h⟩

/-- The loop invariant of `mppc_compress` for a packet that starts at `start` of the history
`mem`. -/
structure MppcEncodes (compressionLevel dstSize : Nat) (mem : Mem UInt8) (start : Nat)
    (packet : List UInt8) (s : MppcEncoder) (consumed : List UInt8)
      (tokens : List (LzToken UInt8)) : Prop where
  level_eq : s.mppc.compressionLevel = compressionLevel
  size_eq : s.mppc.historyBufferSize = mppcHistorySize compressionLevel
  capacity_eq : s.mppc.bs.capacity = dstSize
  packet_eq : packet = consumed ++ s.pSrcPtr
  memory_eq : s.mppc.historyBuffer = blit mem start consumed
  pointer_eq : s.historyPtr = start + consumed.length
  mark_lt : s.mppc.historyPtr < mppcHistorySize compressionLevel
  writes : Writes s.mppc.bs (tokensBits compressionLevel start tokens)
  described : Describes (MppcAllowed compressionLevel) mem start tokens consumed
  room : (tokensBits compressionLevel start tokens).length ≤ 8 * (dstSize - 1)

variable {p matchPtr level dstSize : Nat} {mem : Mem UInt8} {xs packet : List UInt8}

theorem copyOffset_eq (level : Nat) (pos : matchPtr ≠ 0) (inside : matchPtr < mppcHistorySize level) :
    ((mppcHistorySize level - 1) &&& (p + 1 + 2 ^ 64 - matchPtr)) = copyDistance level p
    (matchPtr - 1) := by
  unfold copyDistance mppcHistorySize at *
  rw [Nat.and_comm]
  by_cases rdp5 : level ≠ 0
  · simp only [if_pos rdp5] at *
    rw [show (65536 : Nat) - 1 = 2 ^ 16 - 1 by rfl, Nat.and_two_pow_sub_one_eq_mod]
    omega
  simp only [if_neg rdp5] at *
  rw [show (8192 : Nat) - 1 = 2 ^ 13 - 1 by rfl, Nat.and_two_pow_sub_one_eq_mod]
  omega

theorem repeats_of_match {sym1 sym2 sym3 : UInt8} (fst : sym1 = store mem p sym1 (matchPtr - 1))
    (second : sym2 = store mem p sym1 matchPtr) (third : sym3 = store mem p sym1 (matchPtr + 1))
    (pos : matchPtr ≠ 0) (notHere : matchPtr ≠ p) (notNext : matchPtr ≠ p + 1)
    (extended : Repeats (store (store (store mem p sym1) (p + 1) sym2) (p + 2) sym3)
      (p + 3) (matchPtr + 2) xs) :
    Repeats mem p (matchPtr - 1) (sym1 :: sym2 :: sym3 :: xs) := by
  refine ⟨?_, ?_, ?_, ?_⟩
  · rw [store_of_ne _ _ (by omega)] at fst
    exact fst.symm
  · rw [Nat.sub_add_cancel (pos_of_ne_zero pos)]
    exact second.symm
  · rw [Nat.sub_add_cancel (pos_of_ne_zero pos), store_of_ne _ _ (by omega)]
    exact third.symm
  rw [Nat.sub_add_cancel (pos_of_ne_zero pos)]
  exact extended

theorem MppcEncodes.emit {start : Nat} {consumed : List UInt8} {s s' : MppcEncoder}
    {tokens : List (LzToken UInt8)}
    {t : LzToken UInt8} (inv : MppcEncodes level dstSize mem start packet s consumed tokens)
    (kept : s'.mppc.compressionLevel = s.mppc.compressionLevel)
    (size : s'.mppc.historyBufferSize = s.mppc.historyBufferSize)
    (cap : s'.mppc.bs.capacity = s.mppc.bs.capacity) (src : s.pSrcPtr = xs ++ s'.pSrcPtr)
    (memory : s'.mppc.historyBuffer = blit s.mppc.historyBuffer s.historyPtr xs)
    (ptr : s'.historyPtr = s.historyPtr + xs.length) (mark : s'.mppc.historyPtr < mppcHistorySize level)
    (token : Describes (MppcAllowed level) s.mppc.historyBuffer s.historyPtr [t] xs)
    (writes : Writes s'.mppc.bs (tokensBits level start tokens ++ tokenBits level s.historyPtr t))
    (room : (tokensBits level start tokens).length + (tokenBits level s.historyPtr t).length ≤ 8 *
      (dstSize - 1)) :
    MppcEncodes level dstSize mem start packet s' (consumed ++ xs) (tokens ++ [t]) := by
  have bits : tokensBits level start (tokens ++ [t]) =
      tokensBits level start tokens ++ tokenBits level s.historyPtr t := by
    rw [tokensBits_snoc, inv.described.advance_eq, inv.pointer_eq]
  refine ⟨kept.trans inv.level_eq, size.trans inv.size_eq, cap.trans inv.capacity_eq, ?_, ?_, ?_,
    mark, by rwa [bits], ?_, by rw [bits, length_append]; exact room⟩
  · rw [inv.packet_eq, src, append_assoc]
  · rw [memory, inv.memory_eq, inv.pointer_eq, blit_append]
  · rw [ptr, inv.pointer_eq, length_append, add_assoc]
  rw [inv.memory_eq, inv.pointer_eq] at token
  exact inv.described.append token

theorem writeLiteral_capacity (bs : WBitStream) (sym : UInt8) :
    (writeLiteral bs sym).capacity = bs.capacity := by
  unfold writeLiteral
  dsimp only
  split <;> simp

theorem writeRow_capacity (rows : List EncodeRow) (bs : WBitStream) (value : Nat) :
    (writeRow rows bs value).capacity = bs.capacity := by
  unfold writeRow
  split <;> simp

section
variable {level dstSize : Nat} {mem : Mem UInt8} {st : Nat}
  {packet consumed : List UInt8} {s : MppcEncoder} {toks : List (LzToken UInt8)} {s' : MppcEncoder}

section
variable (inv : MppcEncodes level dstSize mem st packet s consumed toks)
include inv

theorem MppcEncodes.literal {sym : UInt8} {src : List UInt8} (source : s.pSrcPtr = sym :: src)
    (lt : dstSize < 2 ^ 16) (guard : s.mppc.bs.position / 8 + 2 ≤ dstSize - 1)
    (kept : s'.mppc.compressionLevel = s.mppc.compressionLevel)
    (size : s'.mppc.historyBufferSize = s.mppc.historyBufferSize)
    (stream : s'.mppc.bs = writeLiteral s.mppc.bs sym)
    (memory : s'.mppc.historyBuffer = store s.mppc.historyBuffer s.historyPtr sym)
    (mark : s'.mppc.historyPtr < mppcHistorySize level) (ptr : s'.historyPtr = s.historyPtr + 1)
    (rest : s'.pSrcPtr = src) :
    MppcEncodes level dstSize mem st packet s' (consumed ++ [sym]) (toks ++ [.literal sym]) := by
  have position := inv.writes.position_eq
  have short := literalBits_length_le sym
  refine inv.emit kept size ?_ ?_ memory ptr mark (.literal .nil) ?_ ?_
  · rw [stream, writeLiteral_capacity]
  · rw [source, rest]
    rfl
  · rw [stream]
    exact inv.writes.writeLiteral sym (by omega)
  simp only [tokenBits]
  omega

theorem MppcEncodes.copy (src : Nat) (xs : List UInt8) (source : s.pSrcPtr = xs ++ s'.pSrcPtr)
    (lt : dstSize < 2 ^ 16) (guard : s.mppc.bs.position / 8 + 7 ≤ dstSize - 1)
    (reps : Repeats s.mppc.historyBuffer s.historyPtr src xs)
    (inside : src + xs.length ≤ mppcHistorySize level) (ge : 3 ≤ xs.length)
    (short : xs.length < mppcHistorySize level)
    (kept : s'.mppc.compressionLevel = s.mppc.compressionLevel)
    (size : s'.mppc.historyBufferSize = s.mppc.historyBufferSize)
    (stream : s'.mppc.bs = writeRow (lengthOfMatchEncodeRows level)
      (writeRow (copyOffsetEncodeRows level) s.mppc.bs (copyDistance level s.historyPtr src)) xs.length)
    (memory : s'.mppc.historyBuffer = blit s.mppc.historyBuffer s.historyPtr xs)
    (mark : s'.mppc.historyPtr < mppcHistorySize level)
    (ptr : s'.historyPtr = s.historyPtr + xs.length) :
    MppcEncodes level dstSize mem st packet s' (consumed ++ xs) (toks ++ [.copy src xs.length]) := by
  have position := inv.writes.position_eq
  have dist := copyDistance_lt level s.historyPtr src
  have bits := tokenBits_length_le level s.historyPtr (.copy src xs.length)
  have total := bits
  simp only [tokenBits, length_append] at total
  have token :
      Describes (MppcAllowed level) s.mppc.historyBuffer s.historyPtr [.copy src xs.length] xs := by
    simpa using Describes.copy reps ⟨ge, inside⟩ .nil
  refine inv.emit kept size ?_ source memory ptr mark token ?_ ?_
  · rw [stream, writeRow_capacity, writeRow_capacity]
  · have off :=
      inv.writes.writeRow (copyOffset_encodeRows level) dist (copyOffsetTable_covers dist) (by omega)
    have len := off.writeRow (lengthOfMatch_encodeRows level) short
      (lengthOfMatchTable_covers ge short) (by rw [length_append]; omega)
    rw [stream, tokenBits, ← append_assoc]
    exact len
  · omega

def KeepsVariant (compressionLevel : Nat) (mppc : MppcContext) : Prop :=
  mppc.compressionLevel = compressionLevel ∧
    mppc.historyBufferSize = mppcHistorySize compressionLevel

/-- One round emits a token, or gives up because the buffer is full. -/
theorem mppcCompressStep_spec (more : 3 < s.pSrcPtr.length)
    (fits : st + packet.length < mppcHistorySize level)
    (pos : 0 < dstSize) (lt : dstSize < 2 ^ 16) :
    (∃ s' consumed' tokens', mppcCompressStep dstSize s = .ok s' ∧
      MppcEncodes level dstSize mem st packet s' consumed' tokens' ∧
      s'.pSrcPtr.length < s.pSrcPtr.length) ∨
    ∃ mppc, mppcCompressStep dstSize s = .error mppc ∧ KeepsVariant level mppc := by
  obtain ⟨sym1, sym2, sym3, src, source⟩ : ∃ a b c l, s.pSrcPtr = a :: b :: c :: l := by
    match s.pSrcPtr, more with
    | a :: b :: c :: l, _ => exact ⟨a, b, c, l, rfl⟩
  have dst : sub32 dstSize 1 = dstSize - 1 := sub32_of_le pos (by omega)
  have ptr : s.historyPtr + 1 < mppcHistorySize level := by
    have total := congrArg length inv.packet_eq
    rw [length_append] at total
    have := inv.pointer_eq
    omega
  have variant : KeepsVariant level s.mppc := ⟨inv.level_eq, inv.size_eq⟩
  unfold mppcCompressStep
  rw [source]
  dsimp only
  generalize s.mppc.matchBuffer (mppcMatchIndex sym1 sym2 sym3) = matchPtr
  generalize markEq :
    (if s.mppc.historyPtr < s.historyPtr + 1 then s.historyPtr + 1 else s.mppc.historyPtr) = mark
  have markLt : mark < mppcHistorySize level := by
    have := inv.mark_lt
    rw [← markEq]
    split <;> omega
  split
  · -- no usable match: a literal
    split
    · exact Or.inr ⟨_, rfl, variant⟩
    refine Or.inl ⟨_, _, _, rfl, inv.literal source lt ?_ rfl rfl rfl rfl markLt rfl rfl, ?_⟩
    · omega
    · simp
  rename_i usable
  push Not at usable
  obtain ⟨fst, second, third, _, nz, _, _⟩ := usable
  obtain ⟨xs, _, res, srcEq, reps, inside⟩ := extendMatch_spec mark
    (store (store (store s.mppc.historyBuffer s.historyPtr sym1) (s.historyPtr + 1) sym2)
      (s.historyPtr + 1 + 1) sym3) (matchPtr + 2) (s.historyPtr + 1 + 2) 3 src
  rw [res]
  split
  · exact Or.inr ⟨_, rfl, variant⟩
  have total := congrArg length inv.packet_eq
  have bs := congrArg length source
  simp only [length_append, length_cons, srcEq] at total bs
  have reach : matchPtr - 1 + (3 + xs.length) ≤ mppcHistorySize level := by
    by_cases empty : xs = []
    · simp only [empty, length_nil]
      omega
    have := inside empty
    omega
  refine Or.inl ⟨_, _, _, rfl, inv.copy (matchPtr - 1) (sym1 :: sym2 :: sym3 :: xs)
    ?_ lt ?_ ?_ ?_ ?_ ?_ rfl rfl ?_ ?_ markLt ?_, ?_⟩
  · rw [source, srcEq]
    rfl
  · omega
  · exact repeats_of_match fst second third nz (by omega) (by omega) reps
  · simp only [length_cons]
    omega
  · simp
  · simp only [length_cons]
    omega
  · simp only [inv.level_eq, inv.size_eq, length_cons]
    rw [copyOffset_eq level nz (by omega), add_comm 3]
  · rfl
  · simp only [length_cons]
    omega
  · simp only [length_cons, srcEq, length_append]
    omega

end

theorem mppcCompressLoop_spec (fuel : Nat)
    (inv : MppcEncodes level dstSize mem st packet s consumed toks) (room : s.pSrcPtr.length ≤ fuel)
    (fits : st + packet.length < mppcHistorySize level) (pos : 0 < dstSize) (lt : dstSize < 2 ^ 16) :
    (∃ s' consumed' tokens', mppcCompressLoop dstSize fuel s = .ok s' ∧
      MppcEncodes level dstSize mem st packet s' consumed' tokens' ∧ s'.pSrcPtr.length ≤ 3) ∨
    ∃ mppc, mppcCompressLoop dstSize fuel s = .error mppc ∧ KeepsVariant level mppc := by
  induction fuel generalizing s consumed toks with
  | zero => exact Or.inl ⟨s, consumed, toks, rfl, inv, by omega⟩
  | succ fuel ih =>
    rw [mppcCompressLoop]
    by_cases more : 3 < s.pSrcPtr.length
    · rw [if_pos more]
      rcases mppcCompressStep_spec inv more fits pos lt with
        ⟨s', consumed', tokens', step, inv', shorter⟩ | ⟨mppc, step, variant⟩
      · rw [step]
        exact ih inv' (by omega)
      · exact Or.inr ⟨mppc, by rw [step], variant⟩
    rw [if_neg more]
    exact Or.inl ⟨s, consumed, toks, rfl, inv, by omega⟩

theorem mppcCompressTail_spec (mppc : MppcContext) (histPtr : Nat) (src : List UInt8)
    (inv : MppcEncodes level dstSize mem st packet ⟨mppc, histPtr, src⟩ consumed toks)
    (pos : 0 < dstSize) (lt : dstSize < 2 ^ 16) :
    (∃ mppc' historyPtr' tokens', mppcCompressTail dstSize mppc histPtr src = .ok (mppc', historyPtr') ∧
      MppcEncodes level dstSize mem st packet ⟨mppc', historyPtr', []⟩ packet tokens') ∨
    ∃ mppc', mppcCompressTail dstSize mppc histPtr src = .error mppc' ∧ KeepsVariant level mppc' := by
  induction src generalizing mppc histPtr consumed toks with
  | nil =>
    have all : packet = consumed := by simpa using inv.packet_eq
    exact Or.inl ⟨mppc, histPtr, toks, rfl, by rw [← all] at inv; exact inv⟩
  | cons _ src ih =>
    have dst : sub32 dstSize 1 = dstSize - 1 := sub32_of_le pos (by omega)
    rw [mppcCompressTail]
    by_cases guard : mppc.bs.position / 8 + 2 > sub32 dstSize 1
    · rw [if_pos guard]
      exact Or.inr ⟨mppc, rfl, inv.level_eq, inv.size_eq⟩
    rw [if_neg guard]
    exact ih _ _ (inv.literal rfl lt (by simp only; omega) rfl rfl rfl rfl inv.mark_lt rfl rfl)

end

def packetStart (mppc : MppcContext) (packet : List UInt8) : Nat :=
  if Appends mppc packet then mppc.historyOffset else 0

def packetFlags (mppc : MppcContext) (packet : List UInt8) : Nat :=
  PACKET_COMPRESSED ||| mppc.compressionLevel |||
    (if ¬Appends mppc packet then PACKET_AT_FRONT else 0) |||
    (if ¬Appends mppc packet ∧
      mppc.historyOffset = mppc.historyBufferSize + 1 then PACKET_FLUSHED else 0)

/-- A packet is either encoded by tokens that describe it or flushed. -/
theorem mppcCompress_spec {mppc : MppcContext} (variant : KeepsVariant level mppc)
    (mark : mppc.historyPtr < mppcHistorySize level)
    (ne : 0 < packet.length) (short : packet.length < mppcHistorySize level)
    (buffer : 0 < dstSize) (dst : Mem UInt8) :
    let result := mppcCompress mppc packet dst dstSize
    (∃ tokens, Describes (MppcAllowed level) mppc.historyBuffer
      (packetStart mppc packet) tokens packet ∧ result.status = 1 ∧
      result.flags = packetFlags mppc packet ∧
      result.dstData = msbBytes (((tokensBits level (packetStart mppc packet) tokens).length + 7) / 8)
        (tokensBits level (packetStart mppc packet) tokens) ∧
      result.dstData.length < packet.length ∧ KeepsVariant level result.mppc ∧
      result.mppc.historyBuffer = blit mppc.historyBuffer (packetStart mppc packet) packet ∧
      result.mppc.historyOffset = packetStart mppc packet + packet.length ∧
      result.mppc.historyPtr = packetStart mppc packet + packet.length) ∨
    ∃ mppc', KeepsVariant level mppc' ∧ result = mppcFlushed mppc' packet := by
  have size : mppcHistorySize level ≤ 65536 := by
    unfold mppcHistorySize
    split <;> omega
  have fits : packetStart mppc packet + packet.length < mppcHistorySize level := by
    have := variant.2
    unfold packetStart
    split
    · rename_i appends
      have := appends.1
      omega
    · omega
  unfold mppcCompress
  dsimp only
  obtain ⟨pos, within⟩ : 0 < (if dstSize > packet.length then packet.length else dstSize) ∧
      (if dstSize > packet.length then packet.length else dstSize) ≤ packet.length := by
    split <;> omega
  generalize (if dstSize > packet.length then packet.length else dstSize) = cap at pos within ⊢
  have init : MppcEncodes level cap mppc.historyBuffer (packetStart mppc packet)
      packet ⟨{ mppc with bs := bitStreamAttach mppc.bs dst cap }, packetStart mppc packet, packet⟩
        [] [] :=
    ⟨variant.1, variant.2, rfl, rfl, rfl, rfl, mark, writes_attach _ _ _, .nil, by simp [tokensBits]⟩
  rcases mppcCompressLoop_spec packet.length init le_rfl fits pos (by omega) with
    ⟨s, consumed, tokens, loop, inv, -⟩ | ⟨mppc', loop, keeps⟩
  · rcases mppcCompressTail_spec s.mppc s.historyPtr s.pSrcPtr inv pos (by omega) with
      ⟨mppc', historyPtr, tokens', tail, done⟩ | ⟨mppc', tail, keeps⟩
    · left
      have ptr := done.pointer_eq
      have flushed :=
        @Writes.flush mppc'.bs _ (((tokensBits level (packetStart mppc packet) tokens').length + 7) / 8) _
        done.writes (by omega) (by have := done.capacity_eq; have := done.room; simp only at *; omega)
      have position : (bitStreamFlush mppc'.bs).position =
          (tokensBits level (packetStart mppc packet) tokens').length := by
        obtain ⟨_, eq, -⟩ := bitStreamFlush_eq mppc'.bs
        rw [eq]
        exact done.writes.position_eq
      refine ⟨tokens', done.described, ?_⟩
      unfold packetStart at loop
      simp only at ptr
      simp only [loop, tail, if_neg (show ¬historyPtr > 0xFFFFFFFF by omega), position]
      refine ⟨trivial, ?_, flushed, ?_, ⟨done.level_eq, done.size_eq⟩, done.memory_eq, ptr, ptr⟩
      · rw [packetFlags, done.level_eq, variant.1]
      have := done.room
      rw [flushed, msbBytes_length]
      omega
    · refine Or.inr ⟨mppc', keeps, ?_⟩
      unfold packetStart at loop
      simp only [loop, tail]
  · refine Or.inr ⟨mppc', keeps, ?_⟩
    unfold packetStart at loop
    simp only [loop]

end KvmServer.Codec
