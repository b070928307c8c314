import KvmServer.Crypto.Per

/-! # Fast-path updates (`core/fastpath.c`)

A server sends an update in fragments, each in a PDU of its own; a client collects them and
dispatches the update with the last one.  The bulk codec is a parameter.  Sending does not fail and
nothing is encrypted. -/

namespace KvmServer.Core
open Lib Winpr Crypto

def FASTPATH_MAX_PACKET_SIZE : Nat := 0x3FFF
def FASTPATH_OUTPUT_COMPRESSION_USED : Nat := 0x2

inductive FastpathFragment where
  | single
  | last
  | first
  | next
deriving DecidableEq

def FastpathFragment.code : FastpathFragment → Nat
  | .single => 0
  | .last => 1
  | .first => 2
  | .next => 3

def FastpathFragment.ofCode : Nat → FastpathFragment
  | 0 => .single
  | 1 => .last
  | 2 => .first
  | _ => .next

/-- `bulk_compress` and `bulk_decompress`, with the state each side keeps. -/
structure BulkCodec where
  (Send Recv : Type)
  /-- `none` is a negative status; otherwise the data and the flags. -/
  compress : Send → List UInt8 → Send × Option (List UInt8 × Nat)
  decompress : Recv → List UInt8 → Nat → Recv × Option (List UInt8)

structure FastpathSettings where
  compressionEnabled : Bool
  (compressionLevel multifragMaxRequestSize : Nat)
  fastPathOutput : Bool

structure FastpathUpdateHeader where
  updateCode : UInt8
  fragmentation : FastpathFragment
  (compression compressionFlags size : Nat)

/-! ## Sending -/

def bulkCompressionMaxSize (compressionLevel : Nat) : Nat := if compressionLevel < 1 then 8192 else 65535

def fastpathMaxLength (settings : FastpathSettings) (skipCompression : Bool) : Nat :=
  let maxLength := FASTPATH_MAX_PACKET_SIZE - 20
  if settings.compressionEnabled ∧ ¬skipCompression then
    let compressionMaxSize := bulkCompressionMaxSize settings.compressionLevel
    (if maxLength < compressionMaxSize then maxLength else compressionMaxSize) - 20
  else maxLength

theorem fastpathMaxLength_pos (settings : FastpathSettings) (skipCompression : Bool) :
    0 < fastpathMaxLength settings skipCompression := by
  unfold fastpathMaxLength bulkCompressionMaxSize FASTPATH_MAX_PACKET_SIZE
  split
  · by_cases lt : settings.compressionLevel < 1
    · simp [lt]
    · simp [lt]
  · decide

variable (header : FastpathUpdateHeader)

def fastpathWriteUpdateHeader : List UInt8 :=
  let updateHeader :=
    (header.updateCode &&& 0x0F).toNat ||| ((header.fragmentation.code &&& 3) <<< 4) |||
      ((header.compression &&& 3) <<< 6)
  UInt8.ofNat updateHeader ::
    ((if header.compression ≠ 0 then [UInt8.ofNat header.compressionFlags] else []) ++
      leBytes 2 header.size)

def fastpathGetUpdateHeaderSize : Nat := if header.compression ≠ 0 then 4 else 3

/-- Action and security flags are zero. -/
def fastpathWriteUpdatePduHeader (length : Nat) : List UInt8 :=
  [0, UInt8.ofNat (0x80 ||| (length >>> 8)), UInt8.ofNat (length &&& 0xFF)]

def fastpathWritePdu (data : List UInt8) : Option (List UInt8) :=
  let length := header.size + (fastpathGetUpdateHeaderSize header + 3)
  if length > 2 ^ 16 - 1 then none
  else
    let pdu := fastpathWriteUpdatePduHeader length ++ (fastpathWriteUpdateHeader header ++ data)
    if pdu.length > FASTPATH_MAX_PACKET_SIZE then none else some pdu

def fastpathCompress (codec : BulkCodec) (compress : Bool) (bulk : codec.Send) (src : List UInt8) :
    codec.Send × Except Stop (List UInt8 × Nat) :=
  if compress then
    match codec.compress bulk src with
    | (bulk, none) => (bulk, .ok (src, 0))
    | (bulk, some (dst, flags)) =>
      if flags = 0 then (bulk, .ok (src, 0))
      else if flags ≤ 0xFF then (bulk, .ok (dst, flags)) else (bulk, .error .assertion)
  else (bulk, .ok (src, 0))

def fastpathFragmentation (isFirst isLast : Bool) : FastpathFragment :=
  if isLast then if isFirst then .single else .last
  else if isFirst then .first else .next

structure FastpathSent (codec : BulkCodec) where
  bulk : codec.Send
  pdus : List (List UInt8)
  complete : Bool

def fastpathSendFragments (codec : BulkCodec) (compress : Bool) (maxLength : { n : Nat // 0 < n })
    (updateCode : UInt8) (isFirst : Bool) (bulk : codec.Send) (payload : List UInt8) :
    FastpathSent codec :=
  match fastpathCompress codec compress bulk (payload.take maxLength) with
  | (bulk, .error _) => ⟨bulk, [], false⟩
  | (bulk, .ok (data, flags)) =>
    let isLast : Bool := payload.length ≤ maxLength
    if data.length > 2 ^ 16 - 1 then ⟨bulk, [], false⟩
    else
      let header : FastpathUpdateHeader :=
        { updateCode := updateCode
          fragmentation := fastpathFragmentation isFirst isLast
          compression := if flags ≠ 0 then FASTPATH_OUTPUT_COMPRESSION_USED else 0
          compressionFlags := flags
          size := data.length }
      match fastpathWritePdu header data with
      | none => ⟨bulk, [], false⟩
      | some pdu =>
        if payload.length ≤ maxLength then ⟨bulk, [pdu], true⟩
        else
          let sent :=
            fastpathSendFragments codec compress maxLength updateCode false bulk (payload.drop maxLength)
          { sent with pdus := pdu :: sent.pdus }
termination_by payload.length
decreasing_by
  have := maxLength.2
  rw [List.length_drop]
  omega

def fastpathSendUpdatePdu (codec : BulkCodec) (settings : FastpathSettings) (bulk : codec.Send)
    (updateCode : UInt8) (payload : List UInt8) (skipCompression : Bool) : FastpathSent codec :=
  if ¬settings.fastPathOutput then ⟨bulk, [], false⟩
  else if payload.length > settings.multifragMaxRequestSize then ⟨bulk, [], false⟩
  else
    fastpathSendFragments codec (settings.compressionEnabled && !skipCompression)
      ⟨fastpathMaxLength settings skipCompression, fastpathMaxLength_pos settings skipCompression⟩
      updateCode true bulk payload

/-! ## Receiving -/

/-- `fragmentation` is `none` for -1: no update is being collected. -/
structure RdpFastPath (codec : BulkCodec) where
  bulk : codec.Recv
  fragmentation : Option FastpathFragment
  updateData : List UInt8

def fastpathReadHeaderRdp (bytes : List UInt8) : Option (Nat × List UInt8) :=
  match streamReadBE 1 bytes with
  | none => none
  | some (_, rest) =>
    match perReadLength rest with
    | none => none
    | some (length, rest) =>
      let pos := bytes.length - rest.length
      if pos > length then none else some (length - pos, rest)

def fastpathReadUpdateHeader (bytes : List UInt8) :
    Option ((UInt8 × FastpathFragment × Nat) × List UInt8) :=
  match bytes with
  | [] => none
  | updateHeader :: bytes =>
    some ((updateHeader &&& 0x0F, .ofCode ((updateHeader >>> 4) &&& 3).toNat,
      ((updateHeader >>> 6) &&& 3).toNat), bytes)

def fastpathReadCompressionFlags (compression : Nat) (bytes : List UInt8) : Option (Nat × List UInt8) :=
  if compression = FASTPATH_OUTPUT_COMPRESSION_USED then streamReadLE 1 bytes else some (0, bytes)

structure FastpathReceived (codec : BulkCodec) where
  fastpath : RdpFastPath codec
  dispatched : Option (UInt8 × List UInt8)
  ok : Bool

section Receiving
variable (codec : BulkCodec) (settings : FastpathSettings)
  /- `fastpath_recv_update` succeeds -/
  (recvUpdate : UInt8 → List UInt8 → Bool)

variable (fastpath : RdpFastPath codec)

/-- `fastpath_recv_update` rewinds `updateData` in any case. -/
def fastpathDispatch (updateCode : UInt8) : FastpathReceived codec :=
  ⟨{ fastpath with updateData := [] }, some (updateCode, fastpath.updateData),
    recvUpdate updateCode fastpath.updateData⟩

def fastpathCollect (updateCode : UInt8) (fragmentation : FastpathFragment) : FastpathReceived codec :=
  if fragmentation = .single then
    if fastpath.fragmentation.isSome then ⟨fastpath, none, false⟩
    else fastpathDispatch codec recvUpdate fastpath updateCode
  else if fastpath.updateData.length > settings.multifragMaxRequestSize then ⟨fastpath, none, false⟩
  else if fragmentation = .first then
    if fastpath.fragmentation.isSome then ⟨fastpath, none, false⟩
    else ⟨{ fastpath with fragmentation := some .first }, none, true⟩
  else if fastpath.fragmentation ≠ some .first ∧
    fastpath.fragmentation ≠ some .next then ⟨fastpath, none, false⟩
  else if fragmentation = .next then ⟨{ fastpath with fragmentation := some .next }, none, true⟩
  else fastpathDispatch codec recvUpdate { fastpath with fragmentation := none } updateCode

def fastpathRecvUpdateData (bytes : List UInt8) : FastpathReceived codec :=
  match fastpathReadUpdateHeader bytes with
  | none => ⟨fastpath, none, false⟩
  | some ((updateCode, fragmentation, compression), bytes) =>
    match fastpathReadCompressionFlags compression bytes with
    | none => ⟨fastpath, none, false⟩
    | some (compressionFlags, bytes) =>
      match streamReadLE 2 bytes with
      | none => ⟨fastpath, none, false⟩
      | some (size, bytes) =>
        if bytes.length < size then ⟨fastpath, none, false⟩
        else
          match codec.decompress fastpath.bulk (bytes.take size) compressionFlags with
          | (bulk, none) => ⟨{ fastpath with bulk := bulk }, none, false⟩
          | (bulk, some data) =>
            fastpathCollect codec settings recvUpdate
              { fastpath with bulk := bulk, updateData := fastpath.updateData ++ data }
                updateCode fragmentation

def fastpathRecvPdus :
    RdpFastPath codec → List (List UInt8) → RdpFastPath codec × List (UInt8 × List UInt8)
  | fastpath, [] => (fastpath, [])
  | fastpath, pdu :: pdus =>
    match fastpathReadHeaderRdp pdu with
    | none => fastpathRecvPdus fastpath pdus
    | some (_, bytes) =>
      let received := fastpathRecvUpdateData codec settings recvUpdate fastpath bytes
      let later := fastpathRecvPdus received.fastpath pdus
      (later.1, received.dispatched.toList ++ later.2)

end Receiving

end KvmServer.Core
