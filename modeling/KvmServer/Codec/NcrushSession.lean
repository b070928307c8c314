import KvmServer.Codec.NcrushEncoder
import KvmServer.Lib.Session

/-! # NCRUSH sessions

A compressor and a decompressor joined by a reliable channel.  `NcrushSynced` ties the two histories
and offset caches together and keeps the chains of the compressor true; every exchange preserves it,
across window moves and flushes. -/

namespace KvmServer.Codec
open Lib

structure NcrushPacket where
  data : List UInt8
  dstSize : Nat

structure NcrushPeers where
  (compressor decompressor : NcrushContext)

def ncrushPeersNew : Option NcrushPeers :=
  (ncrushContextNew true).bind fun compressor =>
    (ncrushContextNew false).map fun decompressor => ⟨compressor, decompressor⟩

structure NcrushExchange where
  sent : NcrushCompressed
  received : NcrushDecompressed

def ncrushExchange (peers : NcrushPeers) (packet : NcrushPacket) : NcrushPeers × NcrushExchange :=
  let sent := ncrushCompress peers.compressor packet.data packet.dstSize
  let received := ncrushDecompress peers.decompressor sent.dstData sent.flags
  (⟨sent.ncrush, received.ncrush⟩, ⟨sent, received⟩)

/-- The packets `bulk_compress` lets through, with room for them in the output buffer. -/
def NcrushPacket.Valid (packet : NcrushPacket) : Prop :=
  50 < packet.data.length ∧ packet.data.length < 16384 ∧ packet.data.length ≤ packet.dstSize

structure NcrushSynced (peers : NcrushPeers) : Prop where
  tables : peers.compressor.Generated
  size : peers.compressor.historyBufferSize = 65536
  last : peers.decompressor.historyEndOffset = 65535
  fence : peers.decompressor.historyBufferFence = 0xABABABAB
  cache : peers.compressor.offsetCache = peers.decompressor.offsetCache
  chains : Chains peers.compressor.historyBuffer peers.compressor.hashTable peers.compressor.matchTable
    (peers.decompressor.historyPtr - 1)
  bound : peers.decompressor.historyPtr < 65529
  agree : AgreeBelow peers.decompressor.historyPtr peers.compressor.historyBuffer
    peers.decompressor.historyBuffer
  together : peers.compressor.historyOffset = peers.decompressor.historyPtr ∨
    peers.compressor.historyOffset = 65537 ∧ peers.decompressor.historyPtr = 0 ∧
      peers.compressor.offsetCache = OffsetCache.zero

/-- The packet arrives, the histories agree up to the compressor's offset, or completely after a
flush, and so do the offset caches. -/
structure NcrushDelivered (packet : NcrushPacket) (e : NcrushExchange) : Prop where
  sent : e.sent.status = 1
  received : e.received.status = 1
  data : e.received.dstData = packet.data
  cache : e.sent.ncrush.offsetCache = e.received.ncrush.offsetCache
  agree : AgreeBelow (min e.sent.ncrush.historyOffset 65536) e.sent.ncrush.historyBuffer
    e.received.ncrush.historyBuffer
  compressed : e.sent.flags &&& PACKET_COMPRESSED ≠ 0 →
    e.sent.ncrush.historyOffset = e.received.ncrush.historyPtr
  flushed : e.sent.flags &&& PACKET_COMPRESSED = 0 →
    e.sent.ncrush.historyOffset = 65537 ∧ e.received.ncrush.historyPtr = 0

/-! ## Entering a packet -/

/-- The compressor has chosen the place of the packet, the decompressor has followed the flags. -/
structure NcrushPlaced (placed ready : NcrushContext) (length : Nat) : Prop where
  tables : placed.Generated
  size : placed.historyBufferSize = 65536
  last : ready.historyEndOffset = 65535
  fence : ready.historyBufferFence = 0xABABABAB
  cache : placed.offsetCache = ready.offsetCache
  chains : Chains placed.historyBuffer placed.hashTable placed.matchTable (placed.historyOffset - 1)
  pointer : ready.historyPtr = placed.historyOffset
  agree : AgreeBelow placed.historyOffset placed.historyBuffer ready.historyBuffer
  small : placed.historyOffset + length < 65529

theorem enterPacket_spec {placed ready : NcrushContext} {packet : List UInt8}
    (here : NcrushPlaced placed ready packet.length) (nine : 8 ≤ packet.length) :
    NcrushEntered (ncrushEnterPacket placed packet) placed.historyOffset packet := by
  have lt := here.small
  have chains : Chains (blit placed.historyBuffer placed.historyOffset packet) placed.hashTable
      placed.matchTable (placed.historyOffset - 1) := by
    apply here.chains.congr
    intro x _
    apply wordAt_congr
    iterate 2 exact (blit_of_outside _ _ _ (Or.inl (by omega))).symm
  have added := hashTableAdd_chains (chains.mono (by omega : _ ≤ placed.historyOffset))
    (block_blit placed.historyBuffer placed.historyOffset packet) (by omega)
  exact ⟨here.tables, here.size, added.mono (by omega), block_blit _ _ _, rfl, lt⟩

section
variable {ps : NcrushPeers} {length : Nat}

theorem ncrushPlaced_moved (sync : NcrushSynced ps)
    (same : ps.compressor.historyOffset = ps.decompressor.historyPtr) (short : length < 16384)
    (late : 32768 < ps.decompressor.historyPtr) :
    ∃ moved, ncrushMoveEncoderWindows ps.compressor ps.compressor.historyOffset = some moved ∧
      NcrushPlaced { moved with historyPtr := 32768, historyOffset := 32768 }
        (ncrushMoveDecoderWindow ps.decompressor) length := by
  have bound := sync.bound
  have full : ¬(ps.compressor.historyOffset < 32768 ∨ ps.compressor.historyOffset > 65536) := by omega
  refine ⟨_, if_neg full, ?_⟩
  have chains :=
    @Chains.moved _ _ _ (ps.compressor.historyOffset - 32768) _ sync.chains (by omega) (by omega)
  refine ⟨sync.tables, sync.size, sync.last, sync.fence, sync.cache, chains, rfl,
    ?_, by dsimp only; omega⟩
  intro i lo
  dsimp only at lo ⊢
  refine (moveHistory_of_lt lo).trans ?_
  have moved : (ncrushMoveDecoderWindow ps.decompressor).historyBuffer i =
      ps.decompressor.historyBuffer (ps.decompressor.historyPtr - 32768 + i) := if_pos lo
  rw [moved, same]
  exact sync.agree _ (by omega)

theorem placePacket_spec (sync : NcrushSynced ps) (short : length < 16384) :
    ∃ placed flags, ncrushPlacePacket ps.compressor length = some (placed, flags) ∧
      (PACKET_COMPRESSED ||| 2 ||| flags) &&& PACKET_COMPRESSED ≠ 0 ∧
      ¬((PACKET_COMPRESSED ||| 2 ||| flags) &&& PACKET_AT_FRONT ≠ 0 ∧
        ps.decompressor.historyPtr ≤ 32768) ∧ NcrushPlaced placed
      (ncrushApplyFlags ps.decompressor (PACKET_COMPRESSED ||| 2 ||| flags)) length := by
  have bound := sync.bound
  have size := sync.size
  unfold ncrushPlacePacket
  cases sync.together with
  | inl same =>
    by_cases full : length + ps.compressor.historyOffset ≥ 65529
    · obtain ⟨_, move, placed⟩ := @ncrushPlaced_moved _ length sync same short (by omega)
      rw [if_pos full, if_neg (by omega), move]
      refine ⟨_, _, rfl, by decide, by omega, ?_⟩
      exact placed
    rw [if_neg full]
    refine ⟨_, _, rfl, by decide, fun pre => absurd pre.1 (by decide), ?_⟩
    have chains := sync.chains
    have agree := sync.agree
    rw [← same] at chains agree
    exact ⟨sync.tables, size, sync.last, sync.fence, sync.cache, chains, same.symm, agree, by omega⟩
  | inr flush =>
    obtain ⟨_, ptr, empty⟩ := flush
    rw [if_pos (by omega), if_pos (by omega)]
    refine ⟨_, _, rfl, by decide, fun pre => absurd pre.1 (by decide), ?_⟩
    have chains := sync.chains
    rw [ptr] at chains
    exact ⟨sync.tables, size, sync.last, sync.fence, empty, chains, rfl,
      fun i lo => absurd lo (Nat.not_lt_zero i), by dsimp only; omega⟩

end

/-! ## One exchange -/

section
variable {ps : NcrushPeers} {packet : NcrushPacket}
variable {placed : NcrushContext} {flags : Nat} {toks : List (LzToken UInt8)}

theorem ncrushDecompress_sent {decomp : NcrushContext} {data : List UInt8} {res : NcrushCompressed}
    (last : decomp.historyEndOffset = 65535)
    (compressed : (PACKET_COMPRESSED ||| 2 ||| flags) &&& PACKET_COMPRESSED ≠ 0)
    (pre : ¬((PACKET_COMPRESSED ||| 2 ||| flags) &&& PACKET_AT_FRONT ≠ 0 ∧ decomp.historyPtr ≤ 32768))
    (here : NcrushPlaced placed
      (ncrushApplyFlags decomp (PACKET_COMPRESSED ||| 2 ||| flags)) data.length)
    (sent : NcrushSent (ncrushEnterPacket placed data) placed.historyOffset data flags res toks) :
    ncrushDecompress decomp res.dstData res.flags =
      { ncrush := { ncrushApplyFlags decomp (PACKET_COMPRESSED ||| 2 ||| flags) with
          historyBuffer :=
            blit (ncrushApplyFlags decomp (PACKET_COMPRESSED ||| 2 ||| flags)).historyBuffer
            placed.historyOffset data
          offsetCache := ncrushTokensCache placed.offsetCache placed.historyOffset toks
          historyPtr := placed.historyOffset + data.length }
        status := 1
        dstData := data } := by
  have lt := here.small
  obtain ⟨_, stream⟩ := sent.stream
  have agree : AgreeBelow placed.historyOffset (ncrushEnterPacket placed data).historyBuffer
      (ncrushApplyFlags decomp (PACKET_COMPRESSED ||| 2 ||| flags)).historyBuffer := by
    intro i lo
    exact (blit_of_outside _ _ _ (Or.inl lo)).trans (here.agree i lo)
  -- the tokens only look back, where the two histories agree
  have desc := sent.described.congr_behind (fun _ _ _ always => always.1) agree
  change lsbByteBits _ = ncrushTokensBits placed.offsetCache placed.historyOffset toks ++ _ at stream
  rw [here.cache] at stream ⊢
  rw [← here.pointer] at desc stream lt ⊢
  unfold ncrushDecompress
  rw [if_neg (not_not.mpr last), sent.flags, if_neg pre, if_neg compressed,
    ncrushDecompressHistory_tokens here.last here.fence desc (by omega) stream sent.least]

theorem ncrushExchange_sent (sync : NcrushSynced ps) (ok : packet.Valid)
    (compressed : (PACKET_COMPRESSED ||| 2 ||| flags) &&& PACKET_COMPRESSED ≠ 0)
    (pre : ¬((PACKET_COMPRESSED ||| 2 ||| flags) &&& PACKET_AT_FRONT ≠ 0 ∧
      ps.decompressor.historyPtr ≤ 32768)) (here : NcrushPlaced placed
      (ncrushApplyFlags ps.decompressor (PACKET_COMPRESSED ||| 2 ||| flags)) packet.data.length)
    (sent : NcrushSent (ncrushEnterPacket placed packet.data) placed.historyOffset packet.data flags
      (ncrushCompress ps.compressor packet.data packet.dstSize) toks) :
    NcrushSynced (ncrushExchange ps packet).1 ∧ NcrushDelivered packet (ncrushExchange ps packet).2 := by
  have lt := here.small
  have entry := enterPacket_spec here (by have := ok.1; omega)
  have recv := ncrushDecompress_sent sync.last compressed pre here sent
  have agree := here.agree.blit_next packet.data
  unfold ncrushExchange
  dsimp only
  rw [recv, sent.context]
  refine ⟨⟨entry.tables, entry.size, here.last, here.fence, rfl, entry.chains, lt, agree, Or.inl rfl⟩,
    ⟨sent.status, rfl, rfl, ?_, ?_, ?_, ?_⟩⟩
  · rw [sent.context]
    rfl
  · rw [sent.context]
    intro i lo
    exact agree i (by dsimp only at lo; omega)
  · rw [sent.context]
    exact fun _ => rfl
  · rw [sent.flags]
    exact fun raw => absurd raw compressed

theorem Chains.reset {mem mem' : Mem UInt8} {hashTable matchTable : Mem Nat} {next : Nat}
    (chains : Chains mem hashTable matchTable next) (le : next ≤ 65536) :
    Chains mem' (zeroMemory 65536 hashTable) (zeroMemory 65536 matchTable) 0 := by
  refine ⟨zeroMemory_of_lt (by decide) _, fun x linked => ?_, fun w entry => ?_⟩
  · by_cases low : x < 65536
    · exact absurd (zeroMemory_of_lt low _) linked
    rw [zeroMemory_of_le (by omega)] at linked
    have := (chains.link x linked).2.1
    omega
  by_cases low : w < 65536
  · exact absurd (zeroMemory_of_lt low _) entry
  rw [zeroMemory_of_le (by omega)] at entry
  have := wordAt_lt mem (hashTable w)
  rw [(chains.head w entry).2] at this
  exact absurd this low

theorem ncrushExchange_flushed (sync : NcrushSynced ps) {base : NcrushContext}
    {st : Nat} (entry : NcrushEntered base st packet.data)
    (res : ncrushCompress ps.compressor packet.data packet.dstSize =
      (NcrushStop.flush (base.atTokens st toks)).result packet.data) :
    NcrushSynced (ncrushExchange ps packet).1 ∧ NcrushDelivered packet (ncrushExchange ps packet).2 := by
  have lt := entry.small
  have ready :
      ncrushApplyFlags ps.decompressor (PACKET_FLUSHED ||| 2) = ncrushFlushDecoder ps.decompressor := by
    unfold ncrushApplyFlags
    rw [if_pos (by decide), if_neg (by decide)]
  have recv : ncrushDecompress ps.decompressor packet.data (PACKET_FLUSHED ||| 2) =
      { ncrush := ncrushFlushDecoder ps.decompressor, status := 1, dstData := packet.data } := by
    unfold ncrushDecompress
    rw [if_neg (not_not.mpr sync.last), if_neg (fun pre => absurd pre.1 (by decide)),
      if_pos (by decide), ready]
  have chains : Chains (zeroMemory 65536 base.historyBuffer) (zeroMemory 65536 base.hashTable)
      (zeroMemory 65536 base.matchTable) 0 := entry.chains.reset (by omega)
  have marker : (ncrushContextReset (base.atTokens st toks) true).historyOffset = 65537 :=
    congrArg (· + 1) entry.size
  have pre : 0 < 65529 := by decide
  have raw : (PACKET_FLUSHED ||| 2) &&& PACKET_COMPRESSED = 0 := by decide
  unfold ncrushExchange
  dsimp only
  rw [res, NcrushStop.result, recv]
  refine ⟨⟨entry.tables, entry.size, sync.last, sync.fence, rfl, chains, pre,
      fun i lo => absurd lo (Nat.not_lt_zero i), Or.inr ⟨marker, rfl, rfl⟩⟩,
    ⟨rfl, rfl, rfl, rfl, fun i lo => ?_, fun compressed => absurd raw compressed,
      fun _ => ⟨marker, rfl⟩⟩⟩
  have inside : i < 65536 := lt_of_lt_of_le lo (min_le_right _ _)
  exact (zeroMemory_of_lt inside base.historyBuffer).trans
    (zeroMemory_of_lt inside ps.decompressor.historyBuffer).symm

/-- A packet is delivered and the two histories stay in step. -/
theorem ncrushExchange_spec (sync : NcrushSynced ps) (ok : packet.Valid) :
    NcrushSynced (ncrushExchange ps packet).1 ∧ NcrushDelivered packet (ncrushExchange ps packet).2 := by
  obtain ⟨long, short, buffer⟩ := ok
  obtain ⟨placed, flags, place, compressed, pre, here⟩ := placePacket_spec sync short
  have entry := enterPacket_spec here (by omega)
  have ne : packet.data ≠ [] := by
    intro empty
    rw [empty] at long
    cases long
  have res : ncrushCompress ps.compressor packet.data packet.dstSize =
      ncrushEncodePacket
        (ncrushEnterPacket placed packet.data) packet.data placed.historyOffset flags := by
    unfold ncrushCompress
    rw [place]
    dsimp only
    rw [if_neg (by omega)]
  cases encodePacket_spec entry ne flags with
  | inl flush =>
    obtain ⟨toks, flush⟩ := flush
    exact ncrushExchange_flushed sync entry (res.trans flush)
  | inr sent =>
    obtain ⟨toks, sent⟩ := sent
    rw [← res] at sent
    exact ncrushExchange_sent sync ⟨long, short, buffer⟩ compressed pre here sent

end

/-! ## Whole sessions -/

def ncrushFresh (compressor : Bool) : NcrushContext :=
  ncrushContextReset (ncrushContextBlank compressor generatedTableCopyOffset generatedTableLOM) false

theorem ncrushPeersNew_eq : ncrushPeersNew = some ⟨ncrushFresh true, ncrushFresh false⟩ := by
  have created (cmp : Bool) : ncrushContextNew cmp = some (ncrushFresh cmp) := by
    rw [ncrushContextNew, ncrushGenerateTables_eq, Option.map_some, ncrushFresh]
  rw [ncrushPeersNew, created, created, Option.bind_some, Option.map_some]

theorem contextReset_tables (cmp flush : Bool) (huffTableCopyOff huffTableLOM : Nat → Nat) :
    let ncrush := ncrushContextReset (ncrushContextBlank cmp huffTableCopyOff huffTableLOM) flush
    ncrush.huffTableCopyOffset = huffTableCopyOff ∧ ncrush.huffTableLOM = huffTableLOM :=
  ⟨rfl, rfl⟩

theorem ncrushSynced_fresh : NcrushSynced ⟨ncrushFresh true, ncrushFresh false⟩ := by
  have empty : Chains ⟨fun _ => 0⟩ ⟨fun _ => 0⟩ ⟨fun _ => 0⟩ 0 :=
    ⟨rfl, fun _ linked => absurd rfl linked, fun _ entry => absurd rfl entry⟩
  have pre : 0 < 65529 := by decide
  exact ⟨contextReset_tables _ _ _ _, rfl, rfl, rfl, rfl, empty.reset (Nat.zero_le _),
    pre, fun _ _ => rfl, Or.inl rfl⟩

/-- Every packet of every session is delivered with equal histories and offset caches, across window
moves, flushes and packets sent uncompressed. -/
theorem ncrush_session_delivers {packets : List NcrushPacket}
    (valid : ∀ packet ∈ packets, packet.Valid) :
    ∃ peers, ncrushPeersNew = some peers ∧
      List.Forall₂ NcrushDelivered packets (outputs ncrushExchange peers packets) := by
  refine ⟨_, ncrushPeersNew_eq, forall₂_outputs ?_ ncrushSynced_fresh valid⟩
  intro peers packet sync ok
  exact ncrushExchange_spec sync ok

/-- A packet of one repeated byte followed by one of different bytes. -/
theorem ncrush_session_delivers_two : ∃ peers, ncrushPeersNew = some peers ∧ List.Forall₂ NcrushDelivered
        [⟨List.replicate 60 65, 65536⟩, ⟨(List.range 51).map UInt8.ofNat, 65536⟩]
        (outputs ncrushExchange peers
          [⟨List.replicate 60 65, 65536⟩, ⟨(List.range 51).map UInt8.ofNat, 65536⟩]) :=
  ncrush_session_delivers (by simp [NcrushPacket.Valid])

end KvmServer.Codec
