import KvmServer.Codec.MppcEncoder
import KvmServer.Codec.MppcDecoder
import KvmServer.Lib.Session

/-! # MPPC sessions

A compressor and a decompressor joined by a reliable channel.  The invariant `MppcSynced` ties the
two histories together; every exchange keeps it and delivers the packet. -/

namespace KvmServer.Codec
open Lib

structure MppcPacket where
  data : List UInt8
  dstBuffer : Mem UInt8
  dstSize : Nat

structure MppcPeers where
  (compressor decompressor : MppcContext)

def mppcPeersNew (compressionLevel : Nat) : MppcPeers :=
  ⟨mppcContextNew compressionLevel true, mppcContextNew compressionLevel false⟩

structure MppcExchange where
  sent : MppcCompressed
  received : MppcDecompressed

def mppcExchange (peers : MppcPeers) (packet : MppcPacket) : MppcPeers × MppcExchange :=
  let sent := mppcCompress peers.compressor packet.data packet.dstBuffer packet.dstSize
  let received := mppcDecompress peers.decompressor sent.dstData sent.flags
  (⟨sent.mppc, received.mppc⟩, ⟨sent, received⟩)

def ZeroBelow (bound : Nat) (mem : Mem UInt8) : Prop := ∀ i, i < bound → mem i = 0

/-- The histories agree, and the compressor continues where the decompressor stands, unless the last
packet was flushed. -/
structure MppcSynced (compressionLevel : Nat) (peers : MppcPeers) : Prop where
  compressor : KeepsVariant compressionLevel peers.compressor
  decompressor : KeepsVariant compressionLevel peers.decompressor
  agree : AgreeBelow (mppcHistorySize compressionLevel) peers.compressor.historyBuffer
    peers.decompressor.historyBuffer
  offset : peers.decompressor.historyOffset = 0
  pointer : peers.decompressor.historyPtr < mppcHistorySize compressionLevel
  mark : peers.compressor.historyPtr = peers.decompressor.historyPtr
  together : peers.compressor.historyOffset = peers.decompressor.historyPtr ∨
    peers.compressor.historyOffset = mppcHistorySize compressionLevel + 1 ∧
      peers.decompressor.historyPtr = 0 ∧
      ZeroBelow (mppcHistorySize compressionLevel) peers.compressor.historyBuffer

theorem mppcHistorySize_le (level : Nat) : mppcHistorySize level ≤ 65536 := by
  unfold mppcHistorySize
  split <;> omega

variable {flags level : Nat} {mppc : MppcContext}

theorem flags_tests (le : level ≤ 1) (atPre flushed : Prop) [Decidable atPre] [Decidable flushed]
    (composed : flags = PACKET_COMPRESSED ||| level ||| (if atPre then PACKET_AT_FRONT else 0) |||
      (if flushed then PACKET_FLUSHED else 0)) :
    flags &&& PACKET_COMPRESSED ≠ 0 ∧ (flags &&& PACKET_AT_FRONT ≠ 0 ↔ atPre) ∧
    (flags &&& PACKET_FLUSHED ≠ 0 ↔ flushed) := by
  subst composed
  have cases : level = 0 ∨ level = 1 := by omega
  by_cases pre : atPre <;> by_cases flush : flushed <;>
    simp only [pre, flush, if_true, if_false, iff_true, iff_false] <;>
    rcases cases with rfl | rfl <;> decide

theorem mppcApplyFlags_spec (mppc : MppcContext) (flags : Nat) (off : mppc.historyOffset = 0) :
    mppcApplyFlags mppc flags = { mppc with
      historyPtr := if flags &&& PACKET_AT_FRONT ≠ 0 ∨ flags &&& PACKET_FLUSHED ≠ 0 then 0
        else mppc.historyPtr
      historyBuffer := if flags &&& PACKET_FLUSHED ≠ 0 then
          zeroMemory mppc.historyBufferSize mppc.historyBuffer else mppc.historyBuffer } := by
  unfold mppcApplyFlags
  by_cases pre : flags &&& PACKET_AT_FRONT ≠ 0
  · by_cases flush : flags &&& PACKET_FLUSHED ≠ 0
    · simp only [if_pos pre, if_pos flush, if_pos (Or.inl pre), off]
    · simp only [if_pos pre, if_neg flush, if_pos (Or.inl pre), off]
  by_cases flush : flags &&& PACKET_FLUSHED ≠ 0
  · simp only [if_neg pre, if_pos flush, if_pos (Or.inr flush), off]
  · simp only [if_neg pre, if_neg flush, if_neg (not_or.mpr ⟨pre, flush⟩)]

theorem mppcDecompressHistory_of_loop {s : MppcDecoder} {p : Nat}
    (variant : KeepsVariant level mppc) (ptr : mppc.historyPtr = p)
    (loop : mppcDecompressLoop level (mppcHistorySize level)
      (mppcHistorySize level + 1) ⟨mppc.bs, mppc.historyBuffer, p⟩ = (s, 1)) :
    mppcDecompressHistory mppc =
      { mppc := { mppc with bs := s.bs, historyBuffer := s.historyBuffer, historyPtr := s.historyPtr }
        status := 1
        dstData := block s.historyBuffer p (s.historyPtr - p) } := by
  rw [mppcDecompressHistory, variant.1, variant.2, ptr, loop]
  rfl

theorem mppcDecompress_tokens (variant : KeepsVariant level mppc) (off : mppc.historyOffset = 0)
    (compressed : flags &&& PACKET_COMPRESSED ≠ 0) {mem : Mem UInt8} {st : Nat}
    (ptr : (mppcApplyFlags mppc flags).historyPtr = st)
    (agree : AgreeBelow (mppcHistorySize level) mem (mppcApplyFlags mppc flags).historyBuffer)
    {tokens : List (LzToken UInt8)} {packet : List UInt8}
    (desc : Describes (MppcAllowed level) mem st tokens packet)
    (fits : st + packet.length < mppcHistorySize level) {n : Nat}
    (bytes : n = ((tokensBits level st tokens).length + 7) / 8)
    (lt : 8 * n < 2 ^ 32) :
    let result := mppcDecompress mppc (msbBytes n (tokensBits level st tokens)) flags
    result.status = 1 ∧ result.dstData = packet ∧ KeepsVariant level result.mppc ∧
      result.mppc.historyOffset = 0 ∧ result.mppc.historyPtr = st + packet.length ∧
      AgreeBelow (mppcHistorySize level) (blit mem st packet) result.mppc.historyBuffer := by
  intro result
  rw [mppcApplyFlags_spec _ _ off] at ptr agree
  have stream :=
    @reads_attach_fetch (msbBytes n (tokensBits level st tokens)) mppc.bs (by rw [msbBytes_length]; exact lt)
  rw [msbByteBits_msbBytes, takeD_eq_append (by omega)] at stream
  obtain ⟨bs, loop⟩ := mppcDecompressLoop_tokens level
    (desc.congr (fun _ _ _ always => always.2) agree) _ (mppcHistorySize level + 1) fits stream
      (by rw [List.length_replicate]; omega)
    (by omega)
  have unfolded : result = mppcDecompressHistory _ := if_neg compressed
  rw [mppcApplyFlags_spec _ _ (by exact off)] at unfolded
  rw [unfolded, mppcDecompressHistory_of_loop (by exact variant) (by exact ptr) (by exact loop)]
  refine ⟨rfl, ?_, variant, off, rfl, agree.blit _ _⟩
  simp only [Nat.add_sub_cancel_left]
  exact block_blit _ _ _

/-! ## One exchange -/

def MppcPacket.Valid (compressionLevel : Nat) (packet : MppcPacket) : Prop :=
  2 < packet.data.length ∧ packet.data.length < mppcHistorySize compressionLevel ∧
    packet.data.length ≤ packet.dstSize

/-- What an exchange guarantees about the packet and about the two contexts it leaves behind. -/
structure MppcDelivered (compressionLevel : Nat) (packet : MppcPacket) (e : MppcExchange) : Prop where
  sent : e.sent.status = 1
  received : e.received.status = 1
  data : e.received.dstData = packet.data
  agree : AgreeBelow (mppcHistorySize compressionLevel) e.sent.mppc.historyBuffer
    e.received.mppc.historyBuffer
  offset : e.received.mppc.historyOffset = 0
  compressed : e.sent.flags &&& PACKET_COMPRESSED ≠ 0 →
    e.sent.mppc.historyOffset = e.received.mppc.historyPtr
  flushed : e.sent.flags &&& PACKET_COMPRESSED = 0 →
    e.sent.mppc.historyOffset = mppcHistorySize compressionLevel + 1 ∧ e.received.mppc.historyPtr = 0 ∧
      ZeroBelow (mppcHistorySize compressionLevel) e.sent.mppc.historyBuffer

section
variable {level : Nat} {ps : MppcPeers} {packet : MppcPacket}

theorem mppcDecompress_flushed (variant : KeepsVariant level mppc) (off : mppc.historyOffset = 0)
    (raw : flags &&& PACKET_COMPRESSED = 0) (flush : flags &&& PACKET_FLUSHED ≠ 0)
    (pSrcData : List UInt8) :
    let result := mppcDecompress mppc pSrcData flags
    result.status = 1 ∧ result.dstData = pSrcData ∧ KeepsVariant level result.mppc ∧
      result.mppc.historyOffset = 0 ∧ result.mppc.historyPtr = 0 ∧
      ZeroBelow (mppcHistorySize level) result.mppc.historyBuffer := by
  have unfolded : mppcDecompress mppc pSrcData flags = _ := if_pos raw
  rw [mppcApplyFlags_spec _ _ (by exact off), if_pos (Or.inr flush), if_pos flush] at unfolded
  rw [unfolded]
  refine ⟨rfl, rfl, variant, off, rfl, ?_⟩
  intro i lt
  exact zeroMemory_of_lt (by rw [variant.2]; exact lt) _

theorem mppcExchange_flushed (known : level ≤ 1) (sync : MppcSynced level ps)
    (variant : KeepsVariant level mppc)
    (res : mppcCompress ps.compressor packet.data packet.dstBuffer packet.dstSize =
      mppcFlushed mppc packet.data) :
    MppcSynced level (mppcExchange ps packet).1 ∧
    MppcDelivered level packet (mppcExchange ps packet).2 := by
  have size := mppcHistorySize_le level
  obtain ⟨raw, flush⟩ : (mppcFlushed mppc packet.data).flags &&& PACKET_COMPRESSED = 0 ∧
      (mppcFlushed mppc packet.data).flags &&& PACKET_FLUSHED ≠ 0 := by
    have cases : level = 0 ∨ level = 1 := by omega
    simp only [mppcFlushed, variant.1]
    rcases cases with rfl | rfl <;> decide
  have sentZero :
      ZeroBelow (mppcHistorySize level) (mppcFlushed mppc packet.data).mppc.historyBuffer := by
    intro i lt
    exact zeroMemory_of_lt (by omega) _
  obtain ⟨status, data, keeps, off, ptr, recvZero⟩ :=
    mppcDecompress_flushed sync.decompressor sync.offset raw flush packet.data
  have agree : AgreeBelow (mppcHistorySize level) (mppcFlushed mppc packet.data).mppc.historyBuffer
      (mppcDecompress ps.decompressor packet.data
        (mppcFlushed mppc packet.data).flags).mppc.historyBuffer := by
    intro i lt
    rw [sentZero i lt, recvZero i lt]
  have marker : (mppcFlushed mppc packet.data).mppc.historyOffset = mppcHistorySize level + 1 := by
    rw [← variant.2]
    rfl
  have pos : 0 < mppcHistorySize level := by
    unfold mppcHistorySize
    split <;> omega
  unfold mppcExchange
  rw [res]
  exact ⟨⟨variant, keeps, agree, off, lt_of_eq_of_lt ptr pos, Eq.trans rfl ptr.symm,
    Or.inr ⟨marker, ptr, sentZero⟩⟩,
    ⟨rfl, status, data, agree, off, fun compressed => absurd raw compressed,
      fun _ => ⟨marker, ptr, sentZero⟩⟩⟩

theorem mppcApplyFlags_synced (known : level ≤ 1) (sync : MppcSynced level ps)
    (data : List UInt8) : packetFlags ps.compressor data &&& PACKET_COMPRESSED ≠ 0 ∧
      (mppcApplyFlags ps.decompressor (packetFlags ps.compressor data)).historyPtr =
        packetStart ps.compressor data ∧ AgreeBelow (mppcHistorySize level) ps.compressor.historyBuffer
        (mppcApplyFlags ps.decompressor (packetFlags ps.compressor data)).historyBuffer := by
  have small : ps.compressor.compressionLevel ≤ 1 := by rw [sync.compressor.1]; exact known
  obtain ⟨compressed, pre, flush⟩ := flags_tests small (¬Appends ps.compressor data)
    (¬Appends ps.compressor data ∧
      ps.compressor.historyOffset = ps.compressor.historyBufferSize + 1) (by rfl)
  change packetFlags ps.compressor data &&& PACKET_AT_FRONT ≠ 0 ↔ _ at pre
  have size := sync.compressor.2
  have ptr := sync.pointer
  refine ⟨compressed, ?_, ?_⟩
  · rw [mppcApplyFlags_spec _ _ sync.offset]
    unfold packetStart
    by_cases appends : Appends ps.compressor data
    · have notPre : ¬(packetFlags ps.compressor data &&& PACKET_AT_FRONT ≠ 0 ∨
          packetFlags ps.compressor data &&& PACKET_FLUSHED ≠ 0) := by
        tauto
      simp only [if_neg notPre, if_pos appends]
      have := appends.1
      rcases sync.together with same | ⟨marker, -, -⟩
      · exact same.symm
      · omega
    · simp only [if_pos (Or.inl (pre.mpr appends)), if_neg appends]
  rw [mppcApplyFlags_spec _ _ sync.offset]
  by_cases flushed : packetFlags ps.compressor data &&& PACKET_FLUSHED ≠ 0
  · have marker := (flush.mp flushed).2
    simp only [if_pos flushed, sync.decompressor.2]
    rcases sync.together with same | ⟨-, -, zero⟩
    · omega
    intro i lt
    rw [zero i lt, zeroMemory_of_lt lt]
  simp only [if_neg flushed]
  exact sync.agree

/-- A packet is delivered and the two histories stay in step. -/
theorem mppcExchange_spec (known : level ≤ 1) (sync : MppcSynced level ps)
    (long : 2 < packet.data.length) (short : packet.data.length < mppcHistorySize level)
    (buffer : 0 < packet.dstSize) : MppcSynced level (mppcExchange ps packet).1 ∧
    MppcDelivered level packet (mppcExchange ps packet).2 := by
  have size := mppcHistorySize_le level
  have mark : ps.compressor.historyPtr < mppcHistorySize level := by
    rw [sync.mark]
    exact sync.pointer
  rcases mppcCompress_spec sync.compressor mark (by omega) short buffer packet.dstBuffer with
    ⟨tokens, described, status, flags, data, smaller, variant, memory, offset, pointer⟩ |
    ⟨mppc, variant, result⟩
  · obtain ⟨compressed, st, agree⟩ := mppcApplyFlags_synced known sync packet.data
    have fits : packetStart ps.compressor packet.data + packet.data.length < mppcHistorySize level := by
      have := sync.compressor.2
      unfold packetStart
      split
      · rename_i appends
        have := appends.1
        omega
      · omega
    rw [data, msbBytes_length] at smaller
    obtain ⟨recv, delivers, keeps, decOff, decPtr, histories⟩ :=
      mppcDecompress_tokens sync.decompressor sync.offset compressed st agree described fits rfl
        (by omega)
    rw [← data, ← flags] at recv delivers keeps decOff decPtr histories
    rw [← memory] at histories
    have both := offset.trans decPtr.symm
    refine ⟨⟨variant, keeps, histories, decOff, lt_of_eq_of_lt decPtr fits,
      pointer.trans decPtr.symm, Or.inl both⟩,
      ⟨status, recv, delivers, histories, decOff, fun _ => both, fun raw => ?_⟩⟩
    rw [← flags] at compressed
    exact absurd raw compressed
  · exact mppcExchange_flushed known sync variant result

end

theorem mppcSynced_new (known : level ≤ 1) : MppcSynced level (mppcPeersNew level) := by
  have cases : level = 0 ∨ level = 1 := by omega
  rcases cases with rfl | rfl <;>
    exact ⟨⟨rfl, rfl⟩, ⟨rfl, rfl⟩, fun _ _ => rfl, rfl, by decide, rfl, Or.inl rfl⟩

/-- Every packet of every session is delivered, whatever wraps, flushes and stale match entries lie
between. -/
theorem mppc_session_delivers {compressionLevel : Nat} (level : compressionLevel ≤ 1)
    {packets : List MppcPacket} (valid : ∀ packet ∈ packets, packet.Valid compressionLevel) :
    List.Forall₂ (MppcDelivered compressionLevel) packets
      (outputs mppcExchange (mppcPeersNew compressionLevel) packets) := by
  refine forall₂_outputs ?_ (mppcSynced_new level) valid
  intro _ packet sync ok
  obtain ⟨long, short, _⟩ := ok
  exact mppcExchange_spec level sync long short (by omega)

/-- A compressible packet followed by one that is sent flushed. -/
theorem mppc_session_delivers_flushed : List.Forall₂ (MppcDelivered 0)
      [⟨List.replicate 20 65, ⟨fun _ => 0⟩, 20⟩, ⟨[1, 2, 3], ⟨fun _ => 0⟩, 3⟩]
      (outputs mppcExchange (mppcPeersNew 0)
        [⟨List.replicate 20 65, ⟨fun _ => 0⟩, 20⟩, ⟨[1, 2, 3], ⟨fun _ => 0⟩, 3⟩]) :=
  mppc_session_delivers (by decide) (by simp [MppcPacket.Valid, mppcHistorySize])

/-- The `HistoryOffset` fields are not equal after a packet sent flushed: the compressor keeps the
marker `HistoryBufferSize + 1`, the decompressor never moves the field from zero. -/
theorem mppc_historyOffset_differs : (⟨[1, 2, 3], ⟨fun _ => 0⟩, 3⟩ : MppcPacket).Valid 0 ∧
      (mppcExchange (mppcPeersNew 0) ⟨[1, 2, 3], ⟨fun _ => 0⟩, 3⟩).2.sent.mppc.historyOffset = 8193 ∧
      (mppcExchange (mppcPeersNew 0) ⟨[1, 2, 3], ⟨fun _ => 0⟩, 3⟩).2.received.mppc.historyOffset =
      0 := by
  refine ⟨by simp [MppcPacket.Valid, mppcHistorySize], ?_, ?_⟩ <;> rfl

end KvmServer.Codec
