import KvmServer.Codec.MppcSession
import KvmServer.Codec.NcrushSession
import KvmServer.Core.DataPdu
import KvmServer.Core.FastpathSession

/-! # The bulk codec of the fast path (`codec/bulk.c`)

With the 64K and the RDP 6 compressor `bulk_compress` and `bulk_decompress` keep the laws that
sessions of updates rely on.  The 8K history does not hold every packet. -/

namespace KvmServer.Core
open Lib Codec

structure RdpBulkSend where
  mppcSend : MppcContext
  ncrushSend : NcrushContext
  xcrushSend : XcrushContext
  /-- As MPPC left it; the others take nothing from it. -/
  outputBuffer : Mem UInt8

/-- `none` is a negative status. -/
def bulkCompress (compressionLevel : Nat) (bulk : RdpBulkSend) (pSrcData : List UInt8) :
    RdpBulkSend × Option (List UInt8 × Nat) :=
  let outcome (status : Int) (dstData : List UInt8) (flags : Nat) :=
    if status ≥ 0 then some (dstData, flags) else none
  let mppc (level : Nat) :=
    let sent :=
      mppcCompress (mppcSetCompressionLevel bulk.mppcSend level) pSrcData bulk.outputBuffer 65536
    ({ bulk with mppcSend := sent.mppc, outputBuffer := sent.mppc.bs.buffer },
      outcome sent.status sent.dstData sent.flags)
  if pSrcData.length ≤ 50 ∨ pSrcData.length ≥ 16384 then (bulk, some (pSrcData, 0))
  else
    match compressionLevel with
    | 0 => mppc 0
    | 1 => mppc 1
    | 2 =>
      let sent := ncrushCompress bulk.ncrushSend pSrcData 65536
      ({ bulk with ncrushSend := sent.ncrush }, outcome sent.status sent.dstData sent.flags)
    -- the level is at most `RDP61`
    | _ =>
      let sent := xcrushCompress bulk.xcrushSend pSrcData bulk.outputBuffer 65536
      ({ bulk with xcrushSend := sent.xcrush }, outcome sent.status sent.dstData sent.flags)

def bulkReceive (bulk : RdpBulk) (data : List UInt8) (flags : Nat) : RdpBulk × Option (List UInt8) :=
  let received := bulkDecompress bulk data flags
  (received.2.2, if received.1 < 0 then none else some received.2.1)

/-- A packet moves the contexts of one compressor, so all of them stay in step. -/
def BulkSynced (send : RdpBulkSend) (recv : RdpBulk) : Prop :=
  MppcSynced 1 ⟨send.mppcSend, recv.mppcRecv⟩ ∧ NcrushSynced ⟨send.ncrushSend, recv.ncrushRecv⟩

/-- Flags that name the compressor and fit their byte. -/
abbrev Names (type flags : Nat) : Prop := flags &&& 0x0F = type ∧ flags &&& 0xE0 ≠ 0 ∧ flags ≤ 0xFF

variable {level : Nat} {send : RdpBulkSend} {recv : RdpBulk} {mppc : MppcContext}
  {ps : NcrushPeers} {src : List UInt8}

theorem mppcSetCompressionLevel_self (variant : KeepsVariant 1 mppc) :
    mppcSetCompressionLevel mppc 1 = mppc := by
  obtain ⟨lvl, size⟩ := variant
  rw [mppcSetCompressionLevel, if_neg (by decide), ← lvl,
    ← show mppc.historyBufferSize = 65536 from size]

theorem mppcCompress_names (variant : KeepsVariant 1 mppc) (mark : mppc.historyPtr < 65536)
    (ne : 0 < src.length)
    (short : src.length < 65536) (dst : Mem UInt8) :
    let sent := mppcCompress mppc src dst 65536
    Names 1 sent.flags ∧ sent.dstData.length ≤ src.length := by
  cases mppcCompress_spec variant mark ne short (show 0 < 65536 by decide) dst with
  | inl sent =>
    obtain ⟨_, _, _, flags, _, smaller, _⟩ := sent
    refine ⟨?_, smaller.le⟩
    rw [flags, packetFlags, variant.1]
    split <;> split <;> decide
  | inr flushed =>
    obtain ⟨_, variant, flushed⟩ := flushed
    rw [flushed, mppcFlushed, variant.1]
    exact ⟨show Names 1 (PACKET_FLUSHED ||| 1) by decide, le_rfl⟩

theorem ncrushCompress_names (sync : NcrushSynced ps) (long : 50 < src.length)
    (short : src.length < 16384) :
    let sent := ncrushCompress ps.compressor src 65536
    Names 2 sent.flags ∧ sent.dstData.length ≤ src.length := by
  obtain ⟨_, flags, place, -, -, here⟩ := placePacket_spec sync short
  have named : Names 2 (PACKET_COMPRESSED ||| 2 ||| flags) := by
    unfold ncrushPlacePacket at place
    repeat' split at place
    all_goals cases place
    all_goals decide
  rw [ncrushCompress, place]
  dsimp only
  rw [if_neg (by omega)]
  cases encodePacket_spec (enterPacket_spec here (by omega))
    (List.ne_nil_of_length_pos (by omega)) flags with
  | inl flush =>
    obtain ⟨_, flush⟩ := flush
    rw [flush]
    exact ⟨show Names 2 (PACKET_FLUSHED ||| 2) by decide, le_rfl⟩
  | inr sent =>
    obtain ⟨_, sent⟩ := sent
    exact ⟨sent.flags ▸ named, sent.most⟩

/-- The receiver gets what was compressed and stays in step. -/
theorem bulkCompress_spec (lvl : level = 1 ∨ level = 2) (sync : BulkSynced send recv)
    (src : List UInt8) :
    ∃ dst flags recv', (bulkCompress level send src).2 = some (dst, flags) ∧
      bulkReceive recv dst flags = (recv', some src) ∧ BulkSynced (bulkCompress level send src).1 recv' ∧
      dst.length ≤ src.length ∧ flags ≤ 0xFF := by
  unfold bulkCompress
  split
  · exact ⟨src, 0, recv, rfl, rfl, sync, le_rfl, by decide⟩
  have bounds : 50 < src.length ∧ src.length < 16384 := by omega
  obtain ⟨mppc, ncrush⟩ := sync
  cases lvl with
  | inl lvl =>
    obtain ⟨⟨type, used, byte⟩, small⟩ := mppcCompress_names mppc.compressor (mppc.mark ▸ mppc.pointer)
      (show 0 < src.length by omega) (by omega) send.outputBuffer
    obtain ⟨sync', got⟩ := @mppcExchange_spec 1 _ ⟨src, send.outputBuffer, 65536⟩ le_rfl mppc
      (show 2 < src.length by omega) (show src.length < 65536 by omega) (show 0 < 65536 by decide)
    obtain ⟨sent, status, data, -⟩ := got
    simp only [mppcExchange] at sent status data sync'
    simp only [lvl, mppcSetCompressionLevel_self mppc.compressor, sent]
    refine ⟨_, _, ?_, rfl, ?received, ?synced, small, byte⟩
    case received =>
      simp only [bulkReceive, bulkDecompress, type, if_pos used,
        mppcSetCompressionLevel_self mppc.decompressor, status, data]
      rfl
    case synced => exact ⟨sync', ncrush⟩
  | inr lvl =>
    obtain ⟨⟨type, used, byte⟩, small⟩ := ncrushCompress_names ncrush bounds.1 bounds.2
    obtain ⟨sync', got⟩ :=
      @ncrushExchange_spec _ ⟨src, 65536⟩ ncrush ⟨bounds.1, bounds.2, show src.length ≤ 65536 by omega⟩
    obtain ⟨sent, status, data, -⟩ := got
    simp only [ncrushExchange] at sent status data sync'
    simp only [lvl, sent]
    refine ⟨_, _, ?_, rfl, ?received, ?synced, small, byte⟩
    case received =>
      simp only [bulkReceive, bulkDecompress, type, if_pos used, status, data]
      rfl
    case synced => exact ⟨mppc, sync'⟩

theorem bulkCompress_synced (lvl : level = 1 ∨ level = 2) (src : List UInt8)
    (sync : ∃ recv, BulkSynced send recv) :
    ∃ recv, BulkSynced (bulkCompress level send src).1 recv := by
  obtain ⟨recv, sync⟩ := sync
  obtain ⟨_, _, recv', -, -, sync', -⟩ := bulkCompress_spec lvl sync src
  exact ⟨recv', sync'⟩

/-- The send side is one that some receiver is in step with. -/
def rdpBulkCodec (lvl : level = 1 ∨ level = 2) : BulkCodec where
  Send := { send : RdpBulkSend // ∃ recv, BulkSynced send recv }
  Recv := RdpBulk
  compress send src := (⟨_, bulkCompress_synced lvl src send.2⟩, (bulkCompress level send.1 src).2)
  decompress := bulkReceive

/-- Whatever fragments came before, each one that is sent compressed is received; no fragment is
refused or becomes larger; and the sides are in step when they are new. -/
theorem bulk_codec_keeps_laws (lvl : level = 1 ∨ level = 2) :
    BulkRoundTrips (rdpBulkCodec lvl) (fun send recv => BulkSynced send.1 recv) ∧
    (∀ send src, ∃ dst flags, ((rdpBulkCodec lvl).compress send src).2 = some (dst, flags) ∧
      dst.length ≤ src.length) ∧ ∀ xcrushSend xcrushRecv outputBuffer,
      BulkSynced ⟨mppcContextNew 1 true, ncrushFresh true, xcrushSend, outputBuffer⟩
        ⟨mppcContextNew 1 false, ncrushFresh false, xcrushRecv⟩ := by
  refine ⟨⟨fun _ _ => rfl, fun send recv src sync unused => ?_,
    fun send recv src dst flags sync compressed _ => ?_,
    fun send src dst flags compressed _ => ?_⟩, fun send src => ?_,
    fun _ _ _ => ⟨mppcSynced_new le_rfl, ncrushSynced_fresh⟩⟩
  · obtain ⟨dst, flags, _, sent, received, sync', -⟩ := bulkCompress_spec lvl sync src
    cases unused dst flags sent
    cases received
    exact sync'
  · obtain ⟨_, _, recv', sent, received, sync', -⟩ := bulkCompress_spec lvl sync src
    cases sent.symm.trans compressed
    exact ⟨recv', received, sync'⟩
  · obtain ⟨_, sync⟩ := send.2
    obtain ⟨_, _, _, sent, -, -, small, byte⟩ := bulkCompress_spec lvl sync src
    cases sent.symm.trans compressed
    exact ⟨by omega, byte⟩
  · obtain ⟨_, sync⟩ := send.2
    obtain ⟨dst, flags, _, sent, -, -, small, -⟩ := bulkCompress_spec lvl sync src
    exact ⟨dst, flags, sent, small⟩

/-- A packet of 60 zeros through new RDP 6 contexts. -/
theorem bulk_codec_keeps_laws_rdp6 :
    BulkRoundTrips (rdpBulkCodec (.inr rfl : 2 = 1 ∨ 2 = 2)) (fun send recv => BulkSynced send.1 recv) ∧
      ∃ dst flags,
      (bulkCompress 2 ⟨mppcContextNew 1 true, ncrushFresh true, xcrushContextNew true, ⟨fun _ => 0⟩⟩
        (List.replicate 60 0)).2 = some (dst, flags) ∧ dst.length ≤ 60 := by
  obtain ⟨laws, smaller, fresh⟩ := bulk_codec_keeps_laws (.inr rfl : 2 = 1 ∨ 2 = 2)
  have new := fresh (xcrushContextNew true) (xcrushContextNew false) ⟨fun _ => 0⟩
  exact ⟨laws, smaller ⟨_, _, new⟩ (List.replicate 60 0)⟩

end KvmServer.Core
