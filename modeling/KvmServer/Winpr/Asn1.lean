import KvmServer.Lib.Memory
import KvmServer.Winpr.Stream

/-! # ASN.1 encoder and decoder (`winpr/utils/asn1.c`)

The encoder collects its output in chunks of one memory block, the pool.  Opening a container
reserves room for its headers, and closing it writes them at the end of that room.  The innermost
container comes first; memory is always available. -/

namespace KvmServer.Winpr
open Lib

def ER_TAG_MASK : UInt8 := 0x1F
def ER_TAG_BOOLEAN : UInt8 := 0x01
def ER_TAG_INTEGER : UInt8 := 0x02
def ER_TAG_OCTET_STRING : UInt8 := 0x04
def ER_TAG_OBJECT_IDENTIFIER : UInt8 := 0x06
def ER_TAG_ENUMERATED : UInt8 := 0x0A
def ER_TAG_NULL : UInt8 := 0x05
def ER_TAG_IA5STRING : UInt8 := 0x16
def ER_TAG_UTCTIME : UInt8 := 0x17
def ER_TAG_GENERAL_STRING : UInt8 := 0x1B
def ER_TAG_APP : UInt8 := 0x60
def ER_TAG_SEQUENCE : UInt8 := 0x30
def ER_TAG_SET : UInt8 := 0x31
def ER_TAG_CONTEXTUAL : UInt8 := 0xA0

/-! ## Encoder -/

structure Asn1Chunk where
  (poolOffset capacity used : Nat)

inductive ContainerType where
  | seq
  | set
  | app
  | contextOnly
  | octetString
deriving DecidableEq

structure Asn1EncContainer where
  headerChunkId : Nat
  contextual : Bool
  tag : UInt8
  containerType : ContainerType

structure Asn1Encoder where
  pool : Mem UInt8
  position : Nat
  chunks : List Asn1Chunk
  containers : List Asn1EncContainer

def asn1EncoderNew : Asn1Encoder := ⟨⟨fun _ => 0⟩, 0, [], []⟩

variable (enc : Asn1Encoder)

variable (chunks : List Asn1Chunk)

def expandable : Option Asn1Chunk :=
  chunks.getLast?.filter fun last => last.capacity ≠ 0 ∧ last.capacity = last.used

def commitChunk (position chunkSz : Nat) : List Asn1Chunk :=
  match expandable chunks with
  | some last =>
    chunks.dropLast ++ [{ last with capacity := last.capacity + chunkSz, used := last.used + chunkSz }]
  | none => chunks ++ [⟨position, chunkSz, chunkSz⟩]

def reserveChunk (position chunkSz : Nat) : List Asn1Chunk :=
  chunks ++ [⟨position, chunkSz, 0⟩]

/-- The chunk that was handed out is the last one. -/
def asn1encGetFreeChunk (chunkSz : Nat) (commit : Bool) : Except Stop Asn1Encoder := do
  winprAssert (chunkSz ≠ 0)
  return { enc with
    position := enc.position + chunkSz
    chunks :=
      if commit then commitChunk enc.chunks enc.position chunkSz
      else reserveChunk enc.chunks enc.position chunkSz }

def lenBytes (len : Nat) : Nat :=
  if len < 128 then 1
  else if len < 2 ^ 8 then 2
  else if len < 2 ^ 16 then 3
  else if len < 2 ^ 24 then 4
  else 5

def asn1WriteLen (len : Nat) : Except Stop (List UInt8) :=
  if len < 128 then .ok [.ofNat len]
  else if len < 2 ^ 8 then .ok (0x81 :: beBytes 1 len)
  else if len < 2 ^ 16 then .ok (0x82 :: beBytes 2 len)
  else if len < 2 ^ 24 then .ok (0x83 :: beBytes 3 len)
  else do
    winprAssert (len ≤ 2 ^ 32 - 1)
    return 0x84 :: beBytes 4 len

/-! ### Containers -/

def getAsn1Container (ctype : ContainerType) (tag : UInt8) (contextual : Bool) (maxLen : Nat) :
    Except Stop Asn1Encoder := do
  let enc ← asn1encGetFreeChunk enc maxLen false
  return { enc with containers := ⟨enc.chunks.length - 1, contextual, tag, ctype⟩ :: enc.containers }

variable (tagId : UInt8)

def assertValidTag : Except Stop Unit := winprAssert (tagId < 64)

def winPrAsn1EncAppContainer : Except Stop Asn1Encoder := do
  assertValidTag tagId
  getAsn1Container enc .app tagId false 6

def winPrAsn1EncSeqContainer : Except Stop Asn1Encoder :=
  getAsn1Container enc .seq 0 false 6

def winPrAsn1EncSetContainer : Except Stop Asn1Encoder :=
  getAsn1Container enc .set 0 false 6

def winPrAsn1EncContextualSeqContainer : Except Stop Asn1Encoder :=
  getAsn1Container enc .seq tagId true (6 + 6)

def winPrAsn1EncContextualSetContainer : Except Stop Asn1Encoder :=
  getAsn1Container enc .set tagId true (6 + 6)

def winPrAsn1EncContextualContainer : Except Stop Asn1Encoder :=
  getAsn1Container enc .contextOnly tagId true 6

def winPrAsn1EncOctetStringContainer : Except Stop Asn1Encoder :=
  getAsn1Container enc .octetString 0 false 6

def winPrAsn1EncContextualOctetStringContainer : Except Stop Asn1Encoder :=
  getAsn1Container enc .octetString tagId true (6 + 6)

variable (container : Asn1EncContainer)

def containerByte : Option UInt8 :=
  match container.containerType with
  | .seq => some ER_TAG_SEQUENCE
  | .set => some ER_TAG_SET
  | .octetString => some ER_TAG_OCTET_STRING
  | .app => some (ER_TAG_APP ||| container.tag)
  | .contextOnly => none

variable (innerLen : Nat)

def innerHeaderBytes : Nat :=
  if (containerByte container).isSome then 1 + lenBytes innerLen else 0

def outerHeaderBytes : Nat :=
  let inner := innerHeaderBytes container innerLen
  if container.contextual then 1 + lenBytes (inner + innerLen) + inner else inner

def asn1WriteHeader (tag : UInt8) (len : Nat) : Except Stop (List UInt8) := do
  let length ← asn1WriteLen len
  return tag :: length

def asn1OuterHeader : Except Stop (List UInt8) :=
  if container.contextual then
    asn1WriteHeader (ER_TAG_CONTEXTUAL ||| container.tag)
      (innerHeaderBytes container innerLen + innerLen)
  else .ok []

def asn1InnerHeader : Except Stop (List UInt8) :=
  match containerByte container with
  | some tag => asn1WriteHeader tag innerLen
  | none => .ok []

def asn1WriteHeaders : Except Stop (List UInt8) := do
  let outer ← asn1OuterHeader container innerLen
  let inner ← asn1InnerHeader container innerLen
  return outer ++ inner

def winPrAsn1EncEndContainer : Except Stop (Asn1Encoder × Nat) :=
  match enc.containers with
  | [] => .error .assertion
  | container :: containers => do
    let innerLen := ((enc.chunks.drop (container.headerChunkId + 1)).map (·.used)).sum
    let headerBytes := outerHeaderBytes container innerLen
    let chunk := enc.chunks.getD container.headerChunkId ⟨0, 0, 0⟩
    let poolOffset := chunk.poolOffset + (chunk.capacity - headerBytes)
    let headers ← asn1WriteHeaders container innerLen
    winprAssert (headers.length ≤ headerBytes)
    return ({ enc with
      pool := blit enc.pool poolOffset headers
      chunks := enc.chunks.set container.headerChunkId ⟨poolOffset, headerBytes, headerBytes⟩
      containers := containers }, headerBytes + innerLen)

/-! ### Values -/

def asn1WriteElement (len : Nat) (write : Except Stop (List UInt8)) :
    Except Stop (Asn1Encoder × Nat) := do
  let enc ← asn1encGetFreeChunk enc len true
  let bytes ← write
  winprAssert (bytes.length ≤ len)
  -- the new bytes are the end of the last chunk
  let chunk := enc.chunks.getLastD ⟨0, 0, 0⟩
  let dest := chunk.poolOffset + chunk.capacity - len
  return ({ enc with pool := blit enc.pool dest bytes }, len)

def winPrAsn1EncRawContent (c : List UInt8) : Except Stop (Asn1Encoder × Nat) :=
  asn1WriteElement enc c.length (.ok c)

def winPrAsn1EncContextualRawContent (c : List UInt8) : Except Stop (Asn1Encoder × Nat) := do
  assertValidTag tagId
  asn1WriteElement enc (1 + lenBytes c.length + c.length) do
    let header ← asn1WriteHeader (ER_TAG_CONTEXTUAL ||| tagId) c.length
    return header ++ c

variable (value : BitVec 32)

def asn1IntegerLen : Nat :=
  if value.toInt ≤ 127 ∧ value.toInt ≥ -128 then 2
  else if value.toInt ≤ 32767 ∧ value.toInt ≥ -32768 then 3
  else 5

def asn1WriteInteger : List UInt8 :=
  match asn1IntegerLen value with
  | 2 => 1 :: beBytes 1 value.toNat
  | 3 => 2 :: beBytes 2 value.toNat
  | _ => 4 :: beBytes 4 value.toNat

def winPrAsn1EncIntegerLike (b : UInt8) (value : BitVec 32) : Except Stop (Asn1Encoder × Nat) :=
  asn1WriteElement enc (1 + asn1IntegerLen value) (.ok (b :: asn1WriteInteger value))

def winPrAsn1EncInteger (integer : BitVec 32) : Except Stop (Asn1Encoder × Nat) :=
  winPrAsn1EncIntegerLike enc ER_TAG_INTEGER integer

def winPrAsn1EncEnumerated : Except Stop (Asn1Encoder × Nat) :=
  winPrAsn1EncIntegerLike enc ER_TAG_ENUMERATED value

def winPrAsn1EncContextualIntegerLike (tag tagId : UInt8) (value : BitVec 32) :
    Except Stop (Asn1Encoder × Nat) := do
  assertValidTag tagId
  let len := asn1IntegerLen value
  asn1WriteElement enc (1 + lenBytes (1 + len) + (1 + len)) do
    let header ← asn1WriteHeader (ER_TAG_CONTEXTUAL ||| tagId) (1 + len)
    return header ++ tag :: asn1WriteInteger value

def winPrAsn1EncContextualInteger (integer : BitVec 32) : Except Stop (Asn1Encoder × Nat) :=
  winPrAsn1EncContextualIntegerLike enc ER_TAG_INTEGER tagId integer

def winPrAsn1EncContextualEnumerated : Except Stop (Asn1Encoder × Nat) :=
  winPrAsn1EncContextualIntegerLike enc ER_TAG_ENUMERATED tagId value

def winPrAsn1EncBoolean (b : Bool) : Except Stop (Asn1Encoder × Nat) :=
  asn1WriteElement enc 3 (.ok [ER_TAG_BOOLEAN, 1, if b then 0xff else 0])

def winPrAsn1EncContextualBoolean (b : Bool) : Except Stop (Asn1Encoder × Nat) := do
  assertValidTag tagId
  asn1WriteElement enc 5 (.ok [ER_TAG_CONTEXTUAL ||| tagId, 3, ER_TAG_BOOLEAN, 1, if b then 0xff else 0])

def winPrAsn1EncMemoryChunk (wireType : UInt8) (mchunk : List UInt8) : Except Stop (Asn1Encoder × Nat) :=
  asn1WriteElement enc (1 + lenBytes mchunk.length + mchunk.length) do
    let header ← asn1WriteHeader wireType mchunk.length
    return header ++ mchunk

structure CString where
  bytes : List UInt8
  noZero : 0 ∉ bytes

def winPrAsn1EncOID (oid : List UInt8) : Except Stop (Asn1Encoder × Nat) :=
  winPrAsn1EncMemoryChunk enc ER_TAG_OBJECT_IDENTIFIER oid

def winPrAsn1EncOctetString (octetstring : List UInt8) : Except Stop (Asn1Encoder × Nat) :=
  winPrAsn1EncMemoryChunk enc ER_TAG_OCTET_STRING octetstring

def winPrAsn1EncIA5String (ia5 : CString) : Except Stop (Asn1Encoder × Nat) :=
  winPrAsn1EncMemoryChunk enc ER_TAG_IA5STRING ia5.bytes

def winPrAsn1EncContextualMemoryChunk (wireType tagId : UInt8) (mchunk : List UInt8) :
    Except Stop (Asn1Encoder × Nat) := do
  assertValidTag tagId
  let len := 1 + lenBytes mchunk.length + mchunk.length
  asn1WriteElement enc (1 + lenBytes len + len) do
    let outer ← asn1WriteHeader (ER_TAG_CONTEXTUAL ||| tagId) len
    let inner ← asn1WriteHeader wireType mchunk.length
    return outer ++ (inner ++ mchunk)

def winPrAsn1EncContextualOID (oid : List UInt8) : Except Stop (Asn1Encoder × Nat) :=
  winPrAsn1EncContextualMemoryChunk enc ER_TAG_OBJECT_IDENTIFIER tagId oid

def winPrAsn1EncContextualOctetString (octetstring : List UInt8) : Except Stop (Asn1Encoder × Nat) :=
  winPrAsn1EncContextualMemoryChunk enc ER_TAG_OCTET_STRING tagId octetstring

def winPrAsn1EncContextualIA5String (ia5 : CString) : Except Stop (Asn1Encoder × Nat) :=
  winPrAsn1EncContextualMemoryChunk enc ER_TAG_IA5STRING tagId ia5.bytes

/-! ### The result -/

def winPrAsn1EncStreamSize : Option Nat :=
  if enc.containers.length ≠ 0 then none else some (enc.chunks.map (·.used)).sum

def winPrAsn1EncToStream (s : List UInt8) : Option (List UInt8) :=
  match winPrAsn1EncStreamSize enc with
  | none => none
  | some _ => some (s ++ enc.chunks.flatMap fun chunk => block enc.pool chunk.poolOffset chunk.used)

end KvmServer.Winpr
