import KvmServer.Codec.XcrushDecoder
import KvmServer.Codec.MppcSession

/-! # XCRUSH sessions

The two levels fail in different ways.  Level 2 is in step until the compressor first flushes it; from
then on no packet is sent compressed by level 2 any more.  Level 1 is in step as long as every match
sent has a source both sides agree on. -/

namespace KvmServer.Codec
open Lib

structure XcrushPacket where
  data : List UInt8
  dstBuffer : Mem UInt8
  dstSize : Nat

structure XcrushPeers where
  (compressor decompressor : XcrushContext)

def xcrushPeersNew : XcrushPeers := ⟨xcrushContextNew true, xcrushContextNew false⟩

structure XcrushExchange where
  sent : XcrushCompressed
  received : XcrushDecompressed

/-- `bulk_decompress`: a packet without compression flags is passed through. -/
def bulkDecompressXcrush (xcrush : XcrushContext) (pSrcData : List UInt8) (flags : Nat) :
    XcrushDecompressed :=
  if flags &&& 0xE0 ≠ 0 then xcrushDecompress xcrush pSrcData flags else ⟨xcrush, 0, pSrcData⟩

def xcrushExchange (peers : XcrushPeers) (packet : XcrushPacket) : XcrushPeers × XcrushExchange :=
  let sent := xcrushCompress peers.compressor packet.data packet.dstBuffer packet.dstSize
  let received := bulkDecompressXcrush peers.decompressor sent.dstData sent.flags
  (⟨sent.xcrush, received.xcrush⟩, ⟨sent, received⟩)

/-! ## Level 1 -/

theorem xcrushAppend_spec {enc : XcrushContext} {packet : List UInt8}
    (size : enc.historyBufferSize = 2000000) (short : packet.length ≤ 16384) :
    (xcrushAppend enc packet).historyOffset = xcrushPacketStart enc packet.length + packet.length ∧
      xcrushPacketStart enc packet.length + packet.length + 8 ≤ 2000000 := by
  refine ⟨rfl, ?_⟩
  unfold xcrushPacketStart
  split <;> omega

structure XcrushL1Delivered (packet : List UInt8) (enc dec : XcrushContext)
    (r : XcrushDecompressed) : Prop where
  status : r.status = 1
  data : r.dstData = packet
  mppc : r.xcrush.mppc = dec.mppc
  histories : XcrushHistories enc r.xcrush

variable {enc dec : XcrushContext} {packet data : List UInt8} {flags : Nat} {mppc : MppcContext}

theorem l1_start (histories : XcrushHistories enc dec) (ne : 0 < packet.length)
    (pre : flags &&& L1_PACKET_AT_FRONT ≠ 0 ↔
      enc.historyOffset + packet.length + 8 > enc.historyBufferSize) :
    (if flags &&& L1_PACKET_AT_FRONT ≠ 0 then 0 else dec.historyOffset) =
    xcrushPacketStart enc packet.length ∧ AgreeBelow (xcrushPacketStart enc packet.length)
      (xcrushAppend enc packet).historyBuffer dec.historyBuffer := by
  have size := histories.compressor
  unfold xcrushAppend xcrushPacketStart
  by_cases wraps : enc.historyOffset + packet.length + 8 > enc.historyBufferSize
  · simp only [if_pos (pre.mpr wraps), if_pos wraps]
    exact ⟨trivial, fun i lo => absurd lo (Nat.not_lt_zero i)⟩
  simp only [if_neg (mt pre.mp wraps), if_neg wraps]
  cases histories.together with
  | inl wrap => omega
  | inr same =>
    refine ⟨same.1.symm, fun i lo => ?_⟩
    rw [blit_of_outside _ _ _ (Or.inl lo)]
    exact same.2.2 i lo

variable {s : XcrushDecoder} {l1 : XcrushL1} {l2 : XcrushL2}

theorem xcrushDecompressL1_of_expand {fst : Nat} (ne : 0 < data.length)
    (st : (if flags &&& L1_PACKET_AT_FRONT ≠ 0 then 0 else dec.historyOffset) = fst)
    (exp : xcrushExpandL1 dec.historyBufferSize flags data dec.historyBuffer fst = .ok s) :
    xcrushDecompressL1 dec data flags =
      ⟨{ dec with historyBuffer := s.historyBuffer, historyOffset := s.historyPtr }, 1,
        block s.historyBuffer fst (s.historyPtr - fst)⟩ := by
  unfold xcrushDecompressL1
  rw [if_neg (by omega)]
  dsimp only
  rw [st, exp]

theorem l1_flags_tests (wraps : Prop) [Decidable wraps] {kind : Nat}
    (kinds : kind = L1_NO_COMPRESSION ∨ kind = L1_COMPRESSED)
    (composed : flags = (if wraps then L1_PACKET_AT_FRONT else 0) ||| kind) :
    ((flags ||| L1_INNER_COMPRESSION) &&& L1_PACKET_AT_FRONT ≠ 0 ↔ wraps) ∧
      ((flags ||| L1_INNER_COMPRESSION) &&& L1_NO_COMPRESSION ≠ 0 ↔ kind = L1_NO_COMPRESSION) ∧
      ((flags ||| L1_INNER_COMPRESSION) &&& L1_COMPRESSED ≠ 0 ↔ kind = L1_COMPRESSED) ∧
      (flags &&& L1_COMPRESSED ≠ 0 ↔ kind = L1_COMPRESSED) ∧ flags ||| L1_INNER_COMPRESSION < 256 := by
  subst composed
  by_cases yes : wraps
  · rcases kinds with rfl | rfl <;> simp only [yes, if_true, iff_true] <;> decide
  · rcases kinds with rfl | rfl <;> simp only [yes, if_false, iff_false] <;> decide

theorem l1_delivered_of_expand (histories : XcrushHistories enc dec) (ne : 0 < packet.length)
    (short : packet.length ≤ 16384) (same : (xcrushAppend enc packet).SameHistory l1.xcrush)
    (pre : flags &&& L1_PACKET_AT_FRONT ≠ 0 ↔
      enc.historyOffset + packet.length + 8 > enc.historyBufferSize) (some : 0 < data.length)
    (exp : xcrushExpandL1 2000000 flags data dec.historyBuffer
      (xcrushPacketStart enc packet.length) = .ok s)
    (ptr : s.historyPtr = xcrushPacketStart enc packet.length + packet.length)
    (memory : s.historyBuffer = blit dec.historyBuffer (xcrushPacketStart enc packet.length)
      (block (xcrushAppend enc packet).historyBuffer
        (xcrushPacketStart enc packet.length) packet.length)) :
    XcrushL1Delivered packet l1.xcrush dec (xcrushDecompressL1 dec data flags) := by
  obtain ⟨last, _⟩ := @xcrushAppend_spec enc packet histories.compressor short
  obtain ⟨st, agree⟩ := l1_start histories ne pre
  have packetEq : block (xcrushAppend enc packet).historyBuffer (xcrushPacketStart enc packet.length)
      packet.length = packet := block_blit _ _ _
  have both := agreeBelow_rebuilt (Nat.le_add_right _ packet.length) agree
  rw [Nat.add_sub_cancel_left, ← memory, ← last] at both
  rw [packetEq] at memory
  rw [← histories.decompressor] at exp
  rw [xcrushDecompressL1_of_expand some st exp]
  refine ⟨rfl, ?_, rfl, ⟨same.size_eq.trans histories.compressor, histories.decompressor, Or.inr ?_⟩⟩
  · dsimp only
    rw [ptr, Nat.add_sub_cancel_left, memory, block_blit]
  rw [same.offset_eq, same.memory_eq, ptr]
  exact ⟨last, by omega, both⟩

theorem xcrushL1_delivers (histories : XcrushHistories enc dec) (ne : 0 < packet.length)
    (short : packet.length ≤ 16384) (res : xcrushCompressL1 enc packet = .ok l1)
    (sound : ∀ m ∈ l1.optimizedMatches, SoundSource l1.xcrush.historyBuffer dec.historyBuffer
      l1.xcrush.historyOffset 2000000 m) : XcrushL1Delivered packet l1.xcrush dec
      (xcrushDecompressL1 dec l1.data (l1.flags ||| L1_INNER_COMPRESSION)) := by
  obtain ⟨same, pre, rfl, sent⟩ := xcrushCompressL1_spec res
  obtain ⟨last, _⟩ := @xcrushAppend_spec enc packet histories.compressor short
  rw [same.memory_eq, same.offset_eq] at sound
  cases sent with
  | inl raw =>
    obtain ⟨flags, data⟩ := raw
    obtain ⟨pre, noCompression, -, -, -⟩ := l1_flags_tests _ (Or.inl rfl) flags
    rw [data]
    obtain ⟨s, exp, ptr, memory⟩ := @xcrushExpandL1_raw
      (xcrushPacketStart enc packet.length) _ 2000000 (noCompression.mpr rfl) packet enc.historyBuffer
      dec.historyBuffer (by omega)
    exact l1_delivered_of_expand histories ne short same pre ne exp ptr memory
  | inr matched =>
    obtain ⟨flags, _, _, written, data, _, ordered⟩ := matched
    obtain ⟨pre, noCompression, compressed, -, -⟩ := l1_flags_tests _ (Or.inr rfl) flags
    have notRaw := not_not.mp (mt noCompression.mp (by decide))
    have len := congrArg List.length data
    rw [List.length_append, List.length_append, leBytes_length, flatMap_matchDetails_length] at len
    rw [last] at written ordered sound
    obtain ⟨s, exp, ptr, memory⟩ := xcrushExpandL1_matches notRaw (compressed.mpr rfl)
      (l1_start histories ne pre).2 (by omega) le_rfl (by omega) ordered sound (by omega) written
    rw [← data] at exp
    rw [Nat.add_sub_cancel_left] at memory
    exact l1_delivered_of_expand histories ne short same pre (by omega) exp ptr memory

/-! ## Level 2 -/

structure Level2Closed (mppc : MppcContext) : Prop where
  variant : KeepsVariant 1 mppc
  pointer : mppc.historyPtr < 65536
  marker : mppc.historyOffset = 65537

theorem level2Closed_reset (variant : KeepsVariant 1 mppc) : Level2Closed (mppcContextReset mppc true) :=
  ⟨variant, (by decide : (0 : Nat) < 65536), congrArg (· + 1) variant.2⟩

def Level2Synced (enc dec : XcrushContext) : Prop :=
  MppcSynced 1 ⟨enc.mppc, dec.mppc⟩ ∧ enc.mppc.historyOffset = dec.mppc.historyPtr ∧
    enc.compressionFlags = 0 ∨ Level2Closed enc.mppc

inductive Level2Outcome (enc dec : XcrushContext) (data : List UInt8) (l2 : XcrushL2) : Prop where
  | reset (status : l2.status = 0 ∨ l2.status = 1 ∧ l2.flags &&& PACKET_FLUSHED ≠ 0)
      (longer : l2.dstSize < data.length) (variant : KeepsVariant 1 l2.mppc)
  | plain (status : l2.status = 0 ∨ l2.status = 1 ∧ l2.flags &&& PACKET_FLUSHED ≠ 0)
      (fits : data.length ≤ l2.dstSize) (raw : l2.flags &&& PACKET_COMPRESSED = 0)
      (small : l2.flags < 256)
      (closed : Level2Closed l2.mppc ∨ l2.mppc = enc.mppc ∧ l2.flags = 0)
  | compressed (status : l2.status = 1) (kept : l2.flags &&& PACKET_FLUSHED = 0)
      (compressed : l2.flags &&& PACKET_COMPRESSED ≠ 0) (small : l2.flags < 256)
      (shorter : l2.data.length < data.length) (clear : enc.compressionFlags = 0)
      (received : (mppcDecompress dec.mppc l2.data l2.flags).status = 1)
      (delivered : (mppcDecompress dec.mppc l2.data l2.flags).dstData = data)
      (synced : MppcSynced 1 ⟨l2.mppc, (mppcDecompress dec.mppc l2.data l2.flags).mppc⟩)
      (together : l2.mppc.historyOffset = (mppcDecompress dec.mppc l2.data l2.flags).mppc.historyPtr)

theorem level2_flushed (variant : KeepsVariant 1 mppc)
    (res : l2 = ⟨(mppcFlushed mppc data).mppc, (mppcFlushed mppc data).status,
      (mppcFlushed mppc data).dstData, (mppcFlushed mppc data).dstData.length,
      (mppcFlushed mppc data).flags⟩) : Level2Outcome enc dec data l2 := by
  have flags : (mppcFlushed mppc data).flags = PACKET_FLUSHED ||| 1 := by
    rw [mppcFlushed, variant.1]
  subst res
  refine .plain (Or.inr ⟨rfl, ?_⟩) le_rfl ?_ ?_ (Or.inl (level2Closed_reset variant))
  all_goals
    dsimp only
    rw [flags]
    decide

theorem packetFlags_lt (level : mppc.compressionLevel = 1) (data : List UInt8) :
    packetFlags mppc data < 256 := by
  unfold packetFlags
  rw [level]
  split <;> split <;> decide

theorem level2_closed_compressed (closed : Level2Closed enc.mppc) (status : l2.status = 1)
    (flags : l2.flags = packetFlags enc.mppc data) (len : l2.dstSize < data.length)
    (variant : KeepsVariant 1 l2.mppc) : Level2Outcome enc dec data l2 := by
  have size : enc.mppc.historyBufferSize = 65536 := closed.variant.2
  have pre : ¬Appends enc.mppc data := by
    intro appends
    have := appends.1
    have := closed.marker
    omega
  have flush := (flags_tests (by rw [closed.variant.1]) (¬Appends enc.mppc data)
    (¬Appends enc.mppc data ∧ enc.mppc.historyOffset = enc.mppc.historyBufferSize + 1) flags).2.2.mpr
    ⟨pre, by rw [closed.marker, size]⟩
  exact .reset (Or.inr ⟨status, flush⟩) len variant

/-- The second level compresses the data, sends them as they are or is reset. -/
theorem xcrushCompressL2_spec (sync : Level2Synced enc dec) {data : List UInt8}
    (short : data.length ≤ 16384) (dst : Mem UInt8) {dstSize : Nat} (buffer : 0 < dstSize) :
    Level2Outcome enc dec data (xcrushCompressL2 enc.mppc data dst dstSize) := by
  have variant : KeepsVariant 1 enc.mppc := by
    cases sync with
    | inl open' => exact open'.1.compressor
    | inr closed => exact closed.variant
  unfold xcrushCompressL2
  by_cases long : data.length > 50
  · rw [if_pos long]
    have mark : enc.mppc.historyPtr < mppcHistorySize 1 := by
      cases sync with
      | inl open' =>
        have same : enc.mppc.historyPtr = dec.mppc.historyPtr := open'.1.mark
        rw [same]
        exact open'.1.pointer
      | inr closed => exact closed.pointer
    have fits : data.length < mppcHistorySize 1 := lt_of_le_of_lt short (by decide)
    rcases mppcCompress_spec variant mark (by omega) fits buffer ⟨fun i => dst (i + 2)⟩ with
      ⟨tokens, -, status, flags, -, smaller, keeps, -, -, -⟩ | ⟨mppc, keeps, result⟩
    · cases sync with
      | inl open' =>
        obtain ⟨inStep, _, clear⟩ := open'
        obtain ⟨sync', delivers⟩ := @mppcExchange_spec 1 ⟨enc.mppc, dec.mppc⟩
          ⟨data, ⟨fun i => dst (i + 2)⟩, dstSize⟩ le_rfl inStep (by dsimp only; omega) fits buffer
        obtain ⟨compressed, -, flush⟩ := flags_tests (by rw [variant.1]) (¬Appends enc.mppc data)
          (¬Appends enc.mppc data ∧ enc.mppc.historyOffset = enc.mppc.historyBufferSize + 1) flags
        have notFlush := mt flush.mp (by
          have ptr : dec.mppc.historyPtr < 65536 := inStep.pointer
          have size : enc.mppc.historyBufferSize = 65536 := variant.2
          omega)
        refine .compressed status (not_not.mp notFlush) compressed ?_ smaller
          clear delivers.received delivers.data sync' (delivers.compressed compressed)
        dsimp only
        rw [flags]
        exact packetFlags_lt variant.1 data
      | inr closed => exact level2_closed_compressed closed status flags smaller keeps
    · dsimp only
      rw [result]
      exact level2_flushed keeps rfl
  · rw [if_neg long]
    by_cases longer : dstSize < data.length
    · exact .reset (Or.inl rfl) longer variant
    exact .plain (Or.inl rfl) (not_lt.mp longer) (Nat.zero_and _) (Nat.succ_pos _) (Or.inr ⟨rfl, rfl⟩)

/-! ## One exchange -/

structure XcrushSynced (peers : XcrushPeers) : Prop where
  histories : XcrushHistories peers.compressor peers.decompressor
  level2 : Level2Synced peers.compressor peers.decompressor

/-- As long as the chunk table names no place behind the packet, every match is with earlier bytes. -/
theorem l1_looksBack {enc : XcrushContext} {pkt : List UInt8} {l1 : XcrushL1}
    (res : xcrushCompressL1 enc pkt = .ok l1)
    (below : ChunksBelow (xcrushPacketStart enc pkt.length + pkt.length) enc) :
    LooksBack l1.optimizedMatches := by
  unfold xcrushCompressL1 at res
  dsimp only at res
  split at res
  · cases res
  · cases res
    intro m mem
    cases mem
  rename_i got
  split at res
  · cases res
  · cases res
    exact (xcrushMatches_spec got).2.2 below

/-- The compressor reports success; and if the chunk table names places behind the packet, which
are left from before a wrap, every match it sends has a source the decompressor can read. -/
structure XcrushStepSound (peers : XcrushPeers) (packet : XcrushPacket) : Prop where
  long : 50 < packet.data.length
  short : packet.data.length < 16384
  success : (xcrushCompress peers.compressor packet.data packet.dstBuffer packet.dstSize).status = 1
  sound : ¬ChunksBelow
    (xcrushPacketStart peers.compressor packet.data.length + packet.data.length) peers.compressor →
    ∀ l1, xcrushCompressL1 peers.compressor packet.data = .ok l1 → ∀ m ∈ l1.optimizedMatches,
      SoundSource l1.xcrush.historyBuffer peers.decompressor.historyBuffer
        l1.xcrush.historyOffset 2000000 m

/-- The packet arrives: through `xcrush_decompress` if it was sent with flags, and otherwise as the
packet itself. -/
structure XcrushDelivered (packet : XcrushPacket) (e : XcrushExchange) : Prop where
  data : e.received.dstData = packet.data
  received : e.sent.flags ≠ 0 → e.received.status = 1
  passed : e.sent.flags = 0 → e.sent.dstData = packet.data

theorem bulkDecompress_sent {flags1 flags2 : Nat} (lt1 : flags1 < 256) (lt2 : flags2 < 256) :
    bulkDecompressXcrush dec (UInt8.ofNat flags1 :: UInt8.ofNat flags2 :: data)
    (PACKET_COMPRESSED ||| 3) =
      if flags2 &&& PACKET_COMPRESSED = 0 then xcrushDecompressL1 dec data flags1
      else if (mppcDecompress dec.mppc data flags2).status < 0 then
        ⟨{ dec with mppc := (mppcDecompress dec.mppc data flags2).mppc },
          (mppcDecompress dec.mppc data flags2).status, []⟩
      else xcrushDecompressL1 { dec with mppc := (mppcDecompress dec.mppc data flags2).mppc }
        (mppcDecompress dec.mppc data flags2).dstData flags1 := by
  have byte1 : (UInt8.ofNat flags1).toNat = flags1 := UInt8.toNat_ofNat_of_lt lt1
  have byte2 : (UInt8.ofNat flags2).toNat = flags2 := UInt8.toNat_ofNat_of_lt lt2
  unfold bulkDecompressXcrush xcrushDecompress
  rw [if_pos (by decide)]
  dsimp only
  rw [if_neg (by decide : ¬(PACKET_COMPRESSED ||| 3) &&& PACKET_FLUSHED ≠ 0), byte1, byte2]

section
variable {peers : XcrushPeers} {packet : XcrushPacket} {l1 : XcrushL1}

theorem l1_length (res : xcrushCompressL1 peers.compressor packet.data = .ok l1) :
    l1.data.length ≤ packet.data.length ∧ l1.flags ||| L1_INNER_COMPRESSION < 256 ∧
      (l1.flags &&& L1_COMPRESSED = 0 → l1.data.length = packet.data.length) := by
  obtain ⟨-, _, rfl, ⟨flags, data⟩ | ⟨flags, -, -, -, -, smaller, -⟩⟩ := xcrushCompressL1_spec res
  · obtain ⟨-, -, -, -, lt⟩ := l1_flags_tests _ (Or.inl rfl) flags
    rw [data]
    exact ⟨le_rfl, lt, fun _ => rfl⟩
  obtain ⟨-, -, -, compressed, lt⟩ := l1_flags_tests _ (Or.inr rfl) flags
  exact ⟨smaller.le, lt, fun none => absurd none (compressed.mpr rfl)⟩

theorem xcrushCompress_of_success (long : 50 < packet.data.length)
    (success : (xcrushCompress peers.compressor packet.data packet.dstBuffer
      packet.dstSize).status = 1) :
    packet.data.length + 2 ≤ packet.dstSize ∧ ∃ l1,
    xcrushCompressL1 peers.compressor packet.data = .ok l1 ∧
        xcrushCompress peers.compressor packet.data packet.dstBuffer packet.dstSize =
          let l2 := xcrushCompressL2 l1.xcrush.mppc l1.data packet.dstBuffer (packet.data.length - 2)
          let xcrush := { l1.xcrush with mppc := l2.mppc }
          if l2.status < 0 then ⟨xcrush, l2.status, [], 0⟩
          else if l2.status = 0 ∨ l2.flags &&& PACKET_FLUSHED ≠ 0 then
            if l1.data.length > l2.dstSize then ⟨xcrushContextReset xcrush true, 1, packet.data, 0⟩
            else xcrushFinish xcrush l1.flags l2.flags l1.data packet.dstSize
          else xcrushFinish xcrush l1.flags l2.flags l2.data packet.dstSize := by
  revert success
  unfold xcrushCompress
  dsimp only
  split
  · intro success
    cases success
  split
  · intro success
    cases success
  split
  · rename_i status xcrush fail
    have neg := xcrushCompressL1_error fail
    intro success
    dsimp only at neg success
    omega
  rename_i l1 res
  obtain ⟨_, -, all⟩ := l1_length res
  intro _
  rw [if_neg (by omega), if_neg (by rintro ⟨none, ne⟩; exact ne (all none)),
    sub32_of_le (by omega) (by omega)]
  exact ⟨by omega, l1, res, rfl⟩

theorem xcrushFinish_eq {xc : XcrushContext} {flg1 flg2 : Nat} {dstSize : Nat}
    (fits : data.length + 2 ≤ dstSize) :
    xcrushFinish xc flg1 flg2 data dstSize = ⟨{ xc with compressionFlags :=
            if flg2 &&& PACKET_COMPRESSED ≠ 0 then 0
            else if flg2 &&& PACKET_FLUSHED ≠ 0 then PACKET_FLUSHED
            else xc.compressionFlags }, 1,
        UInt8.ofNat (flg1 ||| L1_INNER_COMPRESSION) ::
          UInt8.ofNat (if flg2 &&& PACKET_COMPRESSED ≠ 0 then flg2 ||| xc.compressionFlags
            else flg2) :: data, PACKET_COMPRESSED ||| 3⟩ :=
  if_neg (by omega)

structure XcrushStep (peers : XcrushPeers) (packet : XcrushPacket) (l1 : XcrushL1) : Prop where
  buffer : packet.data.length + 2 ≤ packet.dstSize
  length : l1.data.length ≤ packet.data.length
  flags : l1.flags ||| L1_INNER_COMPRESSION < 256
  histories : XcrushHistories peers.compressor peers.decompressor
  compressor : l1.xcrush.historyBufferSize = 2000000
  level2 : Level2Synced l1.xcrush peers.decompressor
  delivers : ∀ dec : XcrushContext, dec.historyBuffer = peers.decompressor.historyBuffer →
    XcrushHistories peers.compressor dec →
    XcrushL1Delivered packet.data l1.xcrush dec
      (xcrushDecompressL1 dec l1.data (l1.flags ||| L1_INNER_COMPRESSION))

theorem xcrushStep_of_sound (sync : XcrushSynced peers) (step : XcrushStepSound peers packet)
    (buffer : packet.data.length + 2 ≤ packet.dstSize)
    (res : xcrushCompressL1 peers.compressor packet.data = .ok l1) : XcrushStep peers packet l1 := by
  have same := (xcrushCompressL1_spec res).1
  obtain ⟨len, flags, -⟩ := l1_length res
  have mppc : l1.xcrush.mppc = peers.compressor.mppc := same.mppc_eq
  have pending : l1.xcrush.compressionFlags = peers.compressor.compressionFlags := same.flags_eq
  refine ⟨buffer, len, flags, sync.histories, same.size_eq.trans sync.histories.compressor, ?_, ?_⟩
  · unfold Level2Synced
    rw [mppc, pending]
    exact sync.level2
  intro dec hist histories
  have long := step.long
  refine xcrushL1_delivers histories (by omega) step.short.le res ?_
  rw [hist]
  by_cases below :
    ChunksBelow (xcrushPacketStart peers.compressor packet.data.length + packet.data.length)
      peers.compressor
  · exact fun m mem => Or.inl (l1_looksBack res below m mem)
  · exact step.sound below l1 res

section
variable (step : XcrushStep peers packet l1)
include step

theorem xcrushStep_reset (variant : KeepsVariant 1 mppc)
    (sent : xcrushCompress peers.compressor packet.data packet.dstBuffer packet.dstSize =
      ⟨xcrushContextReset { l1.xcrush with mppc := mppc } true, 1, packet.data, 0⟩) :
    XcrushSynced (xcrushExchange peers packet).1 ∧
      XcrushDelivered packet (xcrushExchange peers packet).2 := by
  unfold xcrushExchange
  rw [sent]
  dsimp only
  exact ⟨⟨⟨step.compressor, step.histories.decompressor, Or.inl (congrArg (· + 1) step.compressor)⟩,
      Or.inr (level2Closed_reset variant)⟩,
    ⟨rfl, fun flags => absurd rfl flags, fun _ => rfl⟩⟩

theorem xcrushStep_plain (raw : l2.flags &&& PACKET_COMPRESSED = 0)
    (lt : l2.flags < 256) (closed : Level2Closed l2.mppc ∨ l2.mppc = l1.xcrush.mppc ∧ l2.flags = 0)
    (sent : xcrushCompress peers.compressor packet.data packet.dstBuffer packet.dstSize =
      xcrushFinish { l1.xcrush with mppc := l2.mppc } l1.flags l2.flags l1.data packet.dstSize) :
    XcrushSynced (xcrushExchange peers packet).1 ∧
      XcrushDelivered packet (xcrushExchange peers packet).2 := by
  have len := step.length
  have buffer := step.buffer
  have delivers := step.delivers peers.decompressor rfl step.histories
  rw [xcrushFinish_eq (by omega), if_neg (not_not.mpr raw), if_neg (not_not.mpr raw)] at sent
  unfold xcrushExchange
  rw [sent]
  dsimp only
  rw [bulkDecompress_sent step.flags lt, if_pos raw]
  refine ⟨⟨⟨step.compressor, delivers.histories.decompressor, delivers.histories.together⟩, ?_⟩,
    ⟨delivers.data, fun _ => delivers.status,
      fun none => absurd none (by decide : ¬PACKET_COMPRESSED ||| 3 = 0)⟩⟩
  cases closed with
  | inl closed => exact Or.inr closed
  | inr unchanged =>
    obtain ⟨mppc, flags⟩ := unchanged
    unfold Level2Synced
    rw [flags, Nat.zero_and, if_neg (by decide), mppc, delivers.mppc]
    exact step.level2

theorem xcrushStep_compressed (compressed : l2.flags &&& PACKET_COMPRESSED ≠ 0)
    (lt : l2.flags < 256) (shorter : l2.data.length < l1.data.length)
    (clear : l1.xcrush.compressionFlags = 0)
    (recv : (mppcDecompress peers.decompressor.mppc l2.data l2.flags).status = 1)
    (inner : (mppcDecompress peers.decompressor.mppc l2.data l2.flags).dstData = l1.data)
    (sync : MppcSynced 1 ⟨l2.mppc, (mppcDecompress peers.decompressor.mppc l2.data l2.flags).mppc⟩)
    (both : l2.mppc.historyOffset =
      (mppcDecompress peers.decompressor.mppc l2.data l2.flags).mppc.historyPtr)
    (sent : xcrushCompress peers.compressor packet.data packet.dstBuffer packet.dstSize =
      xcrushFinish { l1.xcrush with mppc := l2.mppc } l1.flags l2.flags l2.data packet.dstSize) :
    XcrushSynced (xcrushExchange peers packet).1 ∧
      XcrushDelivered packet (xcrushExchange peers packet).2 := by
  have len := step.length
  have buffer := step.buffer
  have flags : l2.flags ||| l1.xcrush.compressionFlags = l2.flags := by rw [clear, Nat.or_zero]
  rw [xcrushFinish_eq (by omega), if_pos compressed, if_pos compressed] at sent
  rw [flags] at sent
  unfold xcrushExchange
  rw [sent]
  dsimp only
  rw [bulkDecompress_sent step.flags lt, if_neg compressed, if_neg (by rw [recv]; decide), inner]
  generalize (mppcDecompress peers.decompressor.mppc l2.data l2.flags).mppc = mppc at sync both ⊢
  have delivers := step.delivers { peers.decompressor with mppc := mppc } rfl
    ⟨step.histories.compressor, step.histories.decompressor, step.histories.together⟩
  refine ⟨⟨⟨step.compressor, delivers.histories.decompressor, delivers.histories.together⟩, Or.inl ?_⟩,
    ⟨delivers.data, fun _ => delivers.status,
      fun none => absurd none (by decide : ¬PACKET_COMPRESSED ||| 3 = 0)⟩⟩
  rw [delivers.mppc]
  exact ⟨sync, both, rfl⟩

end

theorem xcrushExchange_spec (synced : XcrushSynced peers) (sound : XcrushStepSound peers packet) :
    XcrushSynced (xcrushExchange peers packet).1 ∧
    XcrushDelivered packet (xcrushExchange peers packet).2 := by
  have long := sound.long
  have short := sound.short
  obtain ⟨buffer, l1, result, sent⟩ := xcrushCompress_of_success long sound.success
  have step := xcrushStep_of_sound synced sound buffer result
  have length := step.length
  have outcome := @xcrushCompressL2_spec l1.xcrush peers.decompressor step.level2 l1.data (by omega)
    packet.dstBuffer (packet.data.length - 2) (by omega)
  cases outcome with
  | reset status longer variant =>
    rw [if_neg (by omega), if_pos (by tauto), if_pos longer] at sent
    exact xcrushStep_reset step variant sent
  | plain status fits raw small closed =>
    rw [if_neg (by omega), if_pos (by tauto), if_neg (by omega)] at sent
    exact xcrushStep_plain step raw small closed sent
  | compressed status kept compressed small shorter clear received inner synced' together =>
    rw [if_neg (by omega), if_neg (by rw [kept]; omega)] at sent
    exact xcrushStep_compressed step compressed small shorter clear received inner synced' together sent

end

/-! ## Whole sessions -/

theorem xcrushSynced_new : XcrushSynced xcrushPeersNew :=
  ⟨⟨rfl, rfl, Or.inr ⟨rfl, Nat.zero_le _, fun i lo => absurd lo (Nat.not_lt_zero i)⟩⟩,
    Or.inl ⟨⟨⟨rfl, rfl⟩, ⟨rfl, rfl⟩, fun _ _ => rfl, rfl, by decide, rfl, Or.inl rfl⟩, rfl, rfl⟩⟩

def flushedThenPlain : List XcrushPacket :=
  [⟨(List.range 51).map UInt8.ofNat, ⟨fun _ => 0⟩, 64⟩, ⟨List.replicate 60 0, ⟨fun _ => 0⟩, 64⟩]

/-- Has a chunk that starts with eleven bytes of `repeatedPacket`, and one that ends with the seven
after them. -/
def firstPacket : List UInt8 :=
  [1, 1, 120] ++ List.replicate 14 1 ++ [0] ++ List.replicate 13 1 ++ [18, 2, 8] ++ List.replicate 9 2 ++
    [18, 2, 2, 2, 2, 252] ++ List.replicate 20 1 ++ [18] ++ List.replicate 11 2 ++
      [18] ++ List.replicate 25 2 ++
    List.replicate 21 1

def repeatedPacket : List UInt8 :=
  [2, 2, 2, 232] ++ List.replicate 14 2 ++ [252] ++ List.replicate 15 2 ++ [8] ++ List.replicate 93 2

end KvmServer.Codec
