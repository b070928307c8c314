import KvmServer.Core.Fastpath
import KvmServer.Lib.Session

/-! # Fragmentation and reassembly of fast-path updates

A server and a client whose bulk codecs are in step: every update that is sent is dispatched once, as it
was. -/

namespace KvmServer.Core
open Lib Winpr Crypto List

/-- The bulk codec gives every fragment back that it was used for.  `Synced` relates the states of
the two sides. -/
structure BulkRoundTrips (codec : BulkCodec) (Synced : codec.Send → codec.Recv → Prop) : Prop where
  /-- data without flags is taken as it is -/
  plain : ∀ recv data, codec.decompress recv data 0 = (recv, some data)
  /-- a fragment that is sent as it is leaves the codecs in step -/
  skipped : ∀ send recv src, Synced send recv →
    (∀ dst flags, (codec.compress send src).2 = some (dst, flags) → flags = 0) →
    Synced (codec.compress send src).1 recv
  /-- a compressed fragment is decompressed -/
  used : ∀ send recv src dst flags, Synced send recv →
    (codec.compress send src).2 = some (dst, flags) → flags ≠ 0 →
    ∃ recv', codec.decompress recv dst flags = (recv', some src) ∧
      Synced (codec.compress send src).1 recv'
  /-- compression adds at most the two flag bytes of its levels -/
  size : ∀ send src dst flags, (codec.compress send src).2 = some (dst, flags) → flags ≠ 0 →
    dst.length ≤ src.length + 2 ∧ flags ≤ 0xFF

variable {codec : BulkCodec} {Synced : codec.Send → codec.Recv → Prop} {settings : FastpathSettings}
  {recvUpdate : UInt8 → List UInt8 → Bool} {recv : codec.Recv}

/-! ## One fragment -/

theorem fastpathCompress_spec (bulk : BulkRoundTrips codec Synced) (comp : Bool) {send : codec.Send}
    (sync : Synced send recv) (src : List UInt8) :
    ∃ send' data flags recv', fastpathCompress codec comp send src = (send', .ok (data, flags)) ∧
      codec.decompress recv data flags = (recv', some src) ∧ Synced send' recv' ∧ flags ≤ 0xFF ∧
      data.length ≤ src.length + 2 ∧ (comp = false → data = src ∧ flags = 0) := by
  unfold fastpathCompress
  cases comp with
  | false =>
      exact ⟨send, src, 0, recv, rfl, bulk.plain recv src, sync, by omega, by omega, fun _ => ⟨rfl, rfl⟩⟩
  | true =>
    cases compressed : codec.compress send src with
    | mk send' result =>
      have st : (codec.compress send src).1 = send' := by rw [compressed]
      have outcome : (codec.compress send src).2 = result := by rw [compressed]
      cases result with
      | none =>
        have sync' := bulk.skipped send recv src sync (by rw [outcome]; exact nofun)
        rw [st] at sync'
        exact ⟨send', src, 0, recv, rfl, bulk.plain recv src, sync', by omega, by omega, nofun⟩
      | some pair =>
        obtain ⟨dst, flags⟩ := pair
        by_cases unused : flags = 0
        · have sync' := bulk.skipped send recv src sync (by
            intro _ _ got
            rw [outcome] at got
            cases got
            exact unused)
          rw [st] at sync'
          refine ⟨send', src, 0, recv, ?_, bulk.plain recv src, sync', by omega, by omega, nofun⟩
          simp only [if_true, if_pos unused]
        obtain ⟨recv', decomp, sync'⟩ := bulk.used send recv src dst flags sync outcome unused
        obtain ⟨lt, byte⟩ := bulk.size send src dst flags outcome unused
        rw [st] at sync'
        refine ⟨send', dst, flags, recv', ?_, decomp, sync', byte, lt, nofun⟩
        simp only [if_true, if_neg unused, if_pos byte]

theorem readUpdateHeader_write {code : UInt8} (lt : code < 16) (fragmentation : FastpathFragment)
    {compression : Nat} (used : compression = 0 ∨ compression = FASTPATH_OUTPUT_COMPRESSION_USED)
    (rest : List UInt8) :
    fastpathReadUpdateHeader
    (UInt8.ofNat ((code &&& 0x0F).toNat ||| ((fragmentation.code &&& 3) <<< 4) |||
        ((compression &&& 3) <<< 6)) :: rest) = some ((code, fragmentation, compression), rest) := by
  have all : ∀ n < 16, ∀ f < 4, ∀ c < 3,
      (UInt8.ofNat ((UInt8.ofNat n &&& 0x0F).toNat ||| ((f &&& 3) <<< 4) ||| ((c &&& 3) <<< 6)) &&&
        0x0F = UInt8.ofNat n) ∧
      ((UInt8.ofNat ((UInt8.ofNat n &&& 0x0F).toNat ||| ((f &&& 3) <<< 4) ||| ((c &&& 3) <<< 6)) >>>
        4) &&& 3).toNat = f ∧
      ((UInt8.ofNat ((UInt8.ofNat n &&& 0x0F).toNat ||| ((f &&& 3) <<< 4) ||| ((c &&& 3) <<< 6)) >>>
        6) &&& 3).toNat = c := by
    decide +kernel
  have fragment :
      fragmentation.code < 4 ∧ FastpathFragment.ofCode fragmentation.code = fragmentation := by
    cases fragmentation <;> exact ⟨by decide, rfl⟩
  have bound : compression < 3 := by
    obtain rfl | rfl := used <;> decide
  obtain ⟨codeRead, fragRead, compressionRead⟩ :=
    all code.toNat (UInt8.lt_iff_toNat_lt.mp lt) fragmentation.code fragment.1 compression bound
  rw [UInt8.ofNat_toNat] at codeRead fragRead compressionRead
  rw [fastpathReadUpdateHeader, codeRead, fragRead, compressionRead, fragment.2]

variable {body collected : List UInt8} {isFirst : Bool}

theorem readHeaderRdp_write (le : body.length + 3 ≤ FASTPATH_MAX_PACKET_SIZE) :
    fastpathReadHeaderRdp (fastpathWriteUpdatePduHeader (body.length + 3) ++ body) =
    some (body.length, body) := by
  unfold FASTPATH_MAX_PACKET_SIZE at le
  have mark : beBytes 2 ((body.length + 3) ||| 0x8000) =
      [UInt8.ofNat (0x80 ||| ((body.length + 3) >>> 8)), UInt8.ofNat ((body.length + 3) &&& 0xFF)] := by
    have up : (body.length + 3) / 2 ^ 8 < 2 ^ 7 := by omega
    have high : 0x80 ||| ((body.length + 3) / 2 ^ 8) = 2 ^ 7 * 1 + (body.length + 3) / 2 ^ 8 :=
      (Nat.two_pow_add_eq_or_of_lt up 1).symm
    have low : (body.length + 3) &&& 0xFF = (body.length + 3) % 2 ^ 8 :=
      Nat.and_two_pow_sub_one_eq_mod _ 8
    rw [or_marker (by omega), beBytes_two, Nat.shiftRight_eq_div_pow, high, low]
    congr 1
    · congr 1
      omega
    congr 1
    apply UInt8.toNat_inj.mp
    rw [UInt8.toNat_ofNat', UInt8.toNat_ofNat']
    omega
  have len := perReadLength_two (by omega : body.length + 3 < 2 ^ 16) body
  rw [mark, Nat.mod_eq_of_lt (by omega)] at len
  rw [fastpathReadHeaderRdp, fastpathWriteUpdatePduHeader]
  simp only [cons_append, nil_append, streamReadBE_cons] at len ⊢
  rw [len]
  simp only [length_cons]
  rw [if_neg (by omega)]
  congr 2
  omega

theorem recvUpdateData_write (fastpath : RdpFastPath codec) {header : FastpathUpdateHeader}
    (code : header.updateCode < 16)
    (compression : header.compression = if header.compressionFlags ≠
      0 then FASTPATH_OUTPUT_COMPRESSION_USED else 0)
    (flags : header.compressionFlags ≤ 0xFF) {data : List UInt8} (size : header.size = data.length)
    (lt : data.length < 2 ^ 16) {fragment : List UInt8}
    (decomp : codec.decompress fastpath.bulk data header.compressionFlags = (recv, some fragment)) :
    fastpathRecvUpdateData codec settings recvUpdate fastpath
    (fastpathWriteUpdateHeader header ++ data) =
      fastpathCollect codec settings recvUpdate
        { fastpath with bulk := recv, updateData := fastpath.updateData ++ fragment }
        header.updateCode header.fragmentation := by
  have used : header.compression = 0 ∨ header.compression = FASTPATH_OUTPUT_COMPRESSION_USED := by
    rw [compression]
    split
    · exact Or.inr rfl
    · exact Or.inl rfl
  have fst := readUpdateHeader_write code header.fragmentation used
    ((if header.compression ≠ 0 then [UInt8.ofNat header.compressionFlags] else []) ++
      leBytes 2 header.size ++ data)
  have second : fastpathReadCompressionFlags header.compression
      ((if header.compression ≠ 0 then [UInt8.ofNat header.compressionFlags] else []) ++
        leBytes 2 header.size ++
        data) = some (header.compressionFlags, leBytes 2 header.size ++ data) := by
    by_cases flagged : header.compressionFlags ≠ 0
    · rw [if_pos flagged] at compression
      have compressed : header.compression ≠ 0 := by
        rw [compression]
        decide
      have byte : leValue [UInt8.ofNat header.compressionFlags] = header.compressionFlags := by
        change (UInt8.ofNat header.compressionFlags).toNat + 2 ^ 8 * 0 = _
        rw [UInt8.toNat_ofNat', Nat.mod_eq_of_lt (by omega)]
        omega
      rw [fastpathReadCompressionFlags, if_pos compression, if_pos compressed, streamReadLE,
        if_pos (by simp), append_assoc, singleton_append, take_succ_cons, take_zero,
        drop_succ_cons, drop_zero, byte]
    rw [if_neg flagged] at compression
    have none : header.compressionFlags = 0 := by omega
    rw [fastpathReadCompressionFlags, compression, none]
    rfl
  have third : streamReadLE 2 (leBytes 2 header.size ++ data) = some (data.length, data) := by
    rw [streamReadLE, if_pos (by simp), take_left' (leBytes_length 2 _), drop_left' (leBytes_length 2 _),
      size, leValue_leBytes_of_lt lt]
  unfold fastpathRecvUpdateData fastpathWriteUpdateHeader
  rw [cons_append, fst]
  simp only [second, third, lt_irrefl, if_false, take_length, decomp]

/-! ## One update -/

def WellFormedPdu (pdu : List UInt8) : Prop :=
  pdu.length ≤ FASTPATH_MAX_PACKET_SIZE ∧
    ∃ body, fastpathReadHeaderRdp pdu = some (body.length, body) ∧ pdu.length = body.length + 3

def Collecting (isFirst : Bool) (fastpath : RdpFastPath codec) (collected : List UInt8) : Prop :=
  fastpath.updateData = collected ∧
    if isFirst then fastpath.fragmentation = none
    else fastpath.fragmentation = some .first ∨ fastpath.fragmentation = some .next

theorem Collecting.expected {fastpath : RdpFastPath codec}
    (collecting : Collecting false fastpath collected) :
    ¬(fastpath.fragmentation ≠ some .first ∧ fastpath.fragmentation ≠ some .next) := by
  have started : fastpath.fragmentation = some .first ∨ fastpath.fragmentation = some .next :=
    collecting.2
  tauto

section
variable (recvUpdate) {fp : RdpFastPath codec} (coll : Collecting isFirst fp collected)
  (always : collected.length ≤ settings.multifragMaxRequestSize) (updCode : UInt8)
include coll always

theorem fastpathCollect_last : ∃ ok,
    fastpathCollect codec settings recvUpdate fp updCode (fastpathFragmentation isFirst true) =
      ⟨⟨fp.bulk, none, []⟩, some (updCode, collected), ok⟩ := by
  obtain rfl := coll.1
  cases isFirst with
  | true =>
    have idle : fp.fragmentation = none := coll.2
    simp [fastpathCollect, fastpathFragmentation, fastpathDispatch, idle]
  | false =>
    refine ⟨recvUpdate updCode fp.updateData, ?_⟩
    rw [fastpathCollect, if_neg (by decide), if_neg (not_lt.mpr always),
      if_neg (by decide), if_neg coll.expected, if_neg (by decide), fastpathDispatch]

theorem fastpathCollect_more :
    ∃ fastpath', fastpathCollect codec settings recvUpdate fp updCode
    (fastpathFragmentation isFirst false) =
      ⟨fastpath', none, true⟩ ∧ fastpath'.bulk = fp.bulk ∧ Collecting false fastpath' collected := by
  obtain rfl := coll.1
  cases isFirst with
  | true =>
    have idle : fp.fragmentation = none := coll.2
    refine ⟨{ fp with fragmentation := some .first }, ?_, rfl, rfl, Or.inl rfl⟩
    rw [fastpathCollect, if_neg (by decide), if_neg (not_lt.mpr always), if_pos (by decide),
      if_neg (by rw [idle]; decide)]
  | false =>
    refine ⟨{ fp with fragmentation := some .next }, ?_, rfl, rfl, Or.inr rfl⟩
    rw [fastpathCollect, if_neg (by decide), if_neg (not_lt.mpr always),
      if_neg (by decide), if_neg coll.expected, if_pos (by decide)]

end

variable (settings recvUpdate) in
/-- A fragment that was sent is received with its data and its place in the update. -/
theorem fastpathFragment_received (bulk : BulkRoundTrips codec Synced) (comp : Bool) {maxLen : Nat}
    (room : if comp then maxLen + 9 ≤ FASTPATH_MAX_PACKET_SIZE
      else maxLen + 6 ≤ FASTPATH_MAX_PACKET_SIZE)
    {updateCode : UInt8} (code : updateCode < 16) {send : codec.Send} {fastpath : RdpFastPath codec}
    (sync : Synced send fastpath.bulk) {src : List UInt8} (fits : src.length ≤ maxLen)
    (fragmentation : FastpathFragment) :
    ∃ send' data flags recv pdu body, fastpathCompress codec comp send src = (send', .ok (data, flags)) ∧
      ¬data.length > 2 ^ 16 - 1 ∧
      fastpathWritePdu
        { updateCode := updateCode
          fragmentation := fragmentation
          compression := if flags ≠ 0 then FASTPATH_OUTPUT_COMPRESSION_USED else 0
          compressionFlags := flags
          size := data.length } data = some pdu ∧
      WellFormedPdu pdu ∧ (∃ length, fastpathReadHeaderRdp pdu = some (length, body)) ∧
        Synced send' recv ∧
      fastpathRecvUpdateData codec settings recvUpdate fastpath body =
        fastpathCollect codec settings recvUpdate
          { fastpath with bulk := recv, updateData := fastpath.updateData ++ src }
            updateCode fragmentation := by
  obtain ⟨send', data, flags, recv, compressed, decomp, sync', byte, _, plain⟩ :=
    fastpathCompress_spec bulk comp sync src
  have bound : data.length + (if flags ≠ 0 then 4 else 3) + 3 ≤ FASTPATH_MAX_PACKET_SIZE := by
    cases comp with
    | false =>
      obtain ⟨rfl, rfl⟩ := plain rfl
      have room' : maxLen + 6 ≤ FASTPATH_MAX_PACKET_SIZE := room
      simp
      omega
    | true =>
      have room' : maxLen + 9 ≤ FASTPATH_MAX_PACKET_SIZE := room
      split <;> omega
  let header : FastpathUpdateHeader :=
    { updateCode := updateCode
      fragmentation := fragmentation
      compression := if flags ≠ 0 then FASTPATH_OUTPUT_COMPRESSION_USED else 0
      compressionFlags := flags
      size := data.length }
  have hdrSize : fastpathGetUpdateHeaderSize header = if flags ≠ 0 then 4 else 3 := by
    by_cases flagged : flags ≠ 0
    · simp [fastpathGetUpdateHeaderSize, header, flagged, FASTPATH_OUTPUT_COMPRESSION_USED]
    · simp [fastpathGetUpdateHeaderSize, header, flagged]
  have bodyLen : (fastpathWriteUpdateHeader header ++ data).length =
      data.length + fastpathGetUpdateHeaderSize header := by
    by_cases flagged : flags ≠ 0
    · simp [fastpathWriteUpdateHeader, fastpathGetUpdateHeaderSize, header, flagged,
        FASTPATH_OUTPUT_COMPRESSION_USED]
      omega
    simp [fastpathWriteUpdateHeader, fastpathGetUpdateHeaderSize, header, flagged]
    omega
  have total : data.length + (fastpathGetUpdateHeaderSize header + 3) =
      (fastpathWriteUpdateHeader header ++ data).length + 3 := by omega
  have limit : (fastpathWriteUpdateHeader header ++ data).length + 3 ≤ FASTPATH_MAX_PACKET_SIZE :=
    by omega
  have max : FASTPATH_MAX_PACKET_SIZE = 16383 := rfl
  have read := readHeaderRdp_write limit
  have pduLen : (fastpathWriteUpdatePduHeader ((fastpathWriteUpdateHeader header ++ data).length + 3) ++
      (fastpathWriteUpdateHeader header ++ data)).length =
        (fastpathWriteUpdateHeader header ++ data).length + 3 := by
    rfl
  refine ⟨send', data, flags, recv, _, _, compressed,
    by omega, ?_, ⟨?_, _, read, pduLen⟩, ⟨_, read⟩, sync', ?_⟩
  · change fastpathWritePdu header data = _
    rw [fastpathWritePdu]
    simp only [show header.size = data.length from rfl, total]
    rw [if_neg (by omega), if_neg (by omega)]
  · omega
  · exact recvUpdateData_write fastpath code rfl byte rfl (by omega) decomp

theorem fastpathRecvPdus_cons {fastpath : RdpFastPath codec} {pdu : List UInt8} {len : Nat}
    (header : fastpathReadHeaderRdp pdu = some (len, body)) {received : FastpathReceived codec}
    (res : fastpathRecvUpdateData codec settings recvUpdate fastpath body = received)
    (pdus : List (List UInt8)) :
    fastpathRecvPdus codec settings recvUpdate fastpath (pdu :: pdus) =
      ((fastpathRecvPdus codec settings recvUpdate received.fastpath pdus).1,
        received.dispatched.toList ++
        (fastpathRecvPdus codec settings recvUpdate received.fastpath pdus).2) := by
  rw [fastpathRecvPdus, header]
  simp only [res]

/-- The fragments of an update are received as its payload, by induction on what is left to send. -/
theorem sendFragments_received (bulk : BulkRoundTrips codec Synced) (comp : Bool)
    {maxLen : { n : Nat // 0 < n }}
    (room : if comp then maxLen.1 + 9 ≤ FASTPATH_MAX_PACKET_SIZE
      else maxLen.1 + 6 ≤ FASTPATH_MAX_PACKET_SIZE)
    {updateCode : UInt8} (code : updateCode < 16) (payload : List UInt8)
    {isFirst : Bool} {send : codec.Send}
    {fastpath : RdpFastPath codec} (sync : Synced send fastpath.bulk) {collected : List UInt8}
    (collecting : Collecting isFirst fastpath collected)
    (allowed : collected.length + payload.length ≤ settings.multifragMaxRequestSize) :
    ∃ sent recv, fastpathSendFragments codec comp maxLen updateCode isFirst send payload = sent ∧
      sent.complete = true ∧ (∀ pdu ∈ sent.pdus, WellFormedPdu pdu) ∧ Synced sent.bulk recv ∧
      fastpathRecvPdus codec settings recvUpdate fastpath sent.pdus =
        (⟨recv, none, []⟩, [(updateCode, collected ++ payload)]) := by
  generalize len : payload.length = n
  induction n using Nat.strongRecOn generalizing payload isFirst send fastpath collected with
  | _ n ih =>
    subst len
    have fits : (payload.take maxLen).length ≤ maxLen.1 := length_take_le _ _
    obtain ⟨send₁, _, _, recv, pdu, _, compressed, size, written, wellFormed,
        ⟨_, header⟩, sync₁, received⟩ :=
      fastpathFragment_received settings recvUpdate bulk comp room code sync fits
        (fastpathFragmentation isFirst (decide (payload.length ≤ maxLen)))
    rw [fastpathSendFragments, compressed]
    simp only [if_neg size, written]
    have collected₁ : Collecting isFirst
        { fastpath with bulk := recv, updateData := fastpath.updateData ++ payload.take maxLen }
        (collected ++ payload.take maxLen) := ⟨by rw [collecting.1], collecting.2⟩
    have alw₁ : (collected ++ payload.take maxLen).length ≤ settings.multifragMaxRequestSize := by
      rw [length_append, length_take]
      omega
    by_cases last : payload.length ≤ maxLen
    · -- the last fragment takes what is left, and the update is dispatched
      have all : payload.take maxLen = payload := take_of_length_le last
      obtain ⟨_, dispatched⟩ := fastpathCollect_last recvUpdate collected₁ alw₁ updateCode
      rw [decide_eq_true last, dispatched] at received
      rw [if_pos last]
      refine ⟨⟨send₁, [pdu], true⟩, recv, rfl, rfl, ?_, sync₁, ?_⟩
      · intro pdu' mem
        rw [mem_singleton.mp mem]
        exact wellFormed
      rw [fastpathRecvPdus_cons header received, all]
      rfl
    obtain ⟨fp₂, more, bulk₂, collected₂⟩ := fastpathCollect_more recvUpdate collected₁ alw₁ updateCode
    rw [decide_eq_false last, more] at received
    rw [if_neg last]
    have lt : (payload.drop maxLen).length < payload.length := by
      rw [length_drop]
      omega
    have sync₂ : Synced send₁ fp₂.bulk := by
      rw [bulk₂]
      exact sync₁
    have alw₂ : (collected ++ payload.take maxLen).length + (payload.drop maxLen).length ≤
        settings.multifragMaxRequestSize := by
      rw [length_append, length_take, length_drop]
      omega
    obtain ⟨sent, recv', sending, complete, wellFormed', sync₃, later⟩ :=
      ih _ lt (payload.drop maxLen) sync₂ collected₂ alw₂ rfl
    refine ⟨{ sent with pdus := pdu :: sent.pdus }, recv', by rw [sending], complete, ?_, sync₃, ?_⟩
    · intro pdu' mem
      cases mem_cons.mp mem with
      | inl head =>
        rw [head]
        exact wellFormed
      | inr tail => exact wellFormed' pdu' tail
    rw [fastpathRecvPdus_cons header received, later, append_assoc, take_append_drop]
    rfl

/-! ## Sessions -/

structure FastpathDelivery (codec : BulkCodec) where
  pdus : List (List UInt8)
  dispatched : List (UInt8 × List UInt8)
  client : RdpFastPath codec

def fastpathDeliver (codec : BulkCodec) (settings : FastpathSettings)
    (recvUpdate : UInt8 → List UInt8 → Bool)
    (peers : codec.Send × RdpFastPath codec) (update : UInt8 × List UInt8 × Bool) :
    (codec.Send × RdpFastPath codec) × FastpathDelivery codec :=
  let sent := fastpathSendUpdatePdu codec settings peers.1 update.1 update.2.1 update.2.2
  let received := fastpathRecvPdus codec settings recvUpdate peers.2 sent.pdus
  ((sent.bulk, received.1), ⟨sent.pdus, received.2, received.1⟩)

theorem fastpathMaxLength_room (settings : FastpathSettings) (skipCompression : Bool) :
    if settings.compressionEnabled && !skipCompression then
      fastpathMaxLength settings skipCompression + 9 ≤ FASTPATH_MAX_PACKET_SIZE
    else fastpathMaxLength settings skipCompression + 6 ≤ FASTPATH_MAX_PACKET_SIZE := by
  unfold fastpathMaxLength FASTPATH_MAX_PACKET_SIZE
  cases settings.compressionEnabled <;> cases skipCompression
  case true.false =>
    simp only [Bool.not_false, Bool.and_true, if_true, Bool.false_eq_true, not_false_eq_true, and_self]
    split <;> omega
  all_goals simp

theorem fastpathDeliver_spec (bulk : BulkRoundTrips codec Synced) (out : settings.fastPathOutput = true)
    {send : codec.Send} {client : RdpFastPath codec} (sync : Synced send client.bulk)
    (idle : client.fragmentation = none ∧ client.updateData = []) {update : UInt8 × List UInt8 × Bool}
    (code : update.1 < 16) (allowed : update.2.1.length ≤ settings.multifragMaxRequestSize) :
    ∃ send' recv pdus, fastpathDeliver codec settings recvUpdate (send, client) update =
        ((send', ⟨recv, none, []⟩), ⟨pdus, [(update.1, update.2.1)], ⟨recv, none, []⟩⟩) ∧
      Synced send' recv ∧ ∀ pdu ∈ pdus, WellFormedPdu pdu := by
  obtain ⟨updateCode, payload, skipCompression⟩ := update
  have collecting : Collecting true client [] := ⟨idle.2, idle.1⟩
  obtain ⟨sent, recv, sending, -, wellFormed, sync', received⟩ :=
    @sendFragments_received codec Synced settings recvUpdate bulk
      (settings.compressionEnabled && !skipCompression)
      ⟨fastpathMaxLength settings skipCompression, fastpathMaxLength_pos settings skipCompression⟩
      (fastpathMaxLength_room settings skipCompression) updateCode code payload
        true send client sync [] collecting
      (by rw [length_nil, zero_add]; exact allowed)
  have pdu : fastpathSendUpdatePdu codec settings send updateCode payload skipCompression = sent := by
    rw [fastpathSendUpdatePdu, out, if_neg (by simp), if_neg (not_lt.mpr allowed), sending]
  refine ⟨sent.bulk, recv, sent.pdus, ?_, sync', wellFormed⟩
  simp only [fastpathDeliver, pdu, received, nil_append]

def PeersReady (Synced : codec.Send → codec.Recv → Prop) (peers : codec.Send × RdpFastPath codec) :
    Prop :=
  Synced peers.1 peers.2.bulk ∧ peers.2.fragmentation = none ∧ peers.2.updateData = []

/-- In every session each update is dispatched once, as it was sent; every PDU fits and carries its
length, and the client is idle after each update. -/
theorem fastpath_session_delivers (bulk : BulkRoundTrips codec Synced)
    (output : settings.fastPathOutput = true)
    {send : codec.Send} {client : RdpFastPath codec} (synced : Synced send client.bulk)
    (idle : client.fragmentation = none ∧ client.updateData = [])
    {updates : List (UInt8 × List UInt8 × Bool)} (code : ∀ update ∈ updates, update.1 < 16)
    (allowed : ∀ update ∈ updates, update.2.1.length ≤ settings.multifragMaxRequestSize) :
    List.Forall₂ (fun update delivery => delivery.dispatched = [(update.1, update.2.1)] ∧
        (∀ pdu ∈ delivery.pdus, WellFormedPdu pdu) ∧
        delivery.client.fragmentation = none ∧ delivery.client.updateData = [])
      updates (outputs (fastpathDeliver codec settings recvUpdate) (send, client) updates) := by
  have st : PeersReady Synced (send, client) := ⟨synced, idle⟩
  refine forall₂_outputs ?_ st fun update mem => And.intro (code update mem) (allowed update mem)
  rintro ⟨send, client⟩ update ⟨synced, idle⟩ ⟨code, allowed⟩
  obtain ⟨_, _, pdus, step, sync', wellFormed⟩ :=
    @fastpathDeliver_spec codec Synced settings recvUpdate bulk output send client
      synced idle update code allowed
  rw [step]
  exact ⟨⟨sync', rfl, rfl⟩, rfl, wellFormed, rfl, rfl⟩

def complementCodec : BulkCodec where
  Send := Unit
  Recv := Unit
  compress _ src := ((), some (src.map (~~~ ·), 0x21))
  decompress _ data flags := ((), some (if flags = 0 then data else data.map (~~~ ·)))

theorem complementCodec_roundTrips : BulkRoundTrips complementCodec (fun _ _ => True) where
  plain _ _ := rfl
  skipped _ _ _ _ _ := trivial
  used := by
    intro _ _ src dst flags _ compressed _
    cases compressed
    have twice : (fun x : UInt8 => ~~~ x) ∘ (fun x => ~~~ x) = id := funext fun x => UInt8.not_not
    simp [complementCodec, twice]
  size := by
    intro _ src dst flags compressed _
    cases compressed
    simp

/-- A compressed update in several fragments and an empty one, from both sides new. -/
theorem fastpath_session_delivers_fragments : List.Forall₂
      (fun update delivery => delivery.dispatched = [(update.1, update.2.1)] ∧
        (∀ pdu ∈ delivery.pdus, WellFormedPdu pdu) ∧
        delivery.client.fragmentation = none ∧ delivery.client.updateData = [])
      [(1, List.replicate 40000 0x2A, false), (4, [], true)]
      (outputs (fastpathDeliver complementCodec ⟨true, 1, 65536, true⟩ fun _ _ => true)
        ((), ⟨(), none, []⟩) [(1, List.replicate 40000 0x2A, false), (4, [], true)]) :=
  fastpath_session_delivers complementCodec_roundTrips rfl trivial ⟨rfl, rfl⟩
    (List.forall_mem_cons.mpr ⟨by decide, List.forall_mem_singleton.mpr (by decide)⟩)
    (List.forall_mem_cons.mpr ⟨Nat.le_trans (Nat.le_of_eq List.length_replicate) (by decide),
      List.forall_mem_singleton.mpr (by decide)⟩)

/-- An update code has four bits, and nothing is sent to a client without fast-path output. -/
theorem fastpath_update_not_delivered :
    (fastpathDeliver complementCodec ⟨false, 0, 65536, true⟩ (fun _ _ => true) ((), ⟨(), none, []⟩)
      (16, [7], false)).2.dispatched = [(0, [7])] ∧
    (fastpathDeliver complementCodec ⟨false, 0, 65536, false⟩ (fun _ _ => true) ((), ⟨(), none, []⟩)
      (1, [7], false)).2.dispatched = [] := by
  constructor
  · rw [fastpathDeliver, fastpathSendUpdatePdu, fastpathSendFragments]
    decide
  · rfl

end KvmServer.Core
