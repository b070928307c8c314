import KvmServer.Lib.Memory
import KvmServer.Lib.Source
import KvmServer.Winpr.Stream

/-! # Reading PDUs from the transport (`core/transport.c`)

`transport_read_pdu` on a non-blocking transport in its default mode.  A call that does not get the
whole PDU returns 0 and leaves its bytes in the stream; the next call parses the header again. -/

namespace KvmServer.Core
open Lib Winpr

/-! ## The stream that is filled -/

/-- A stream with a buffer of its own; `Stream_New` makes none without capacity. -/
structure BufferStream where
  buffer : Mem UInt8
  (position length capacity : Nat)
  inside : position ≤ capacity
  positive : 0 < capacity

variable (s : BufferStream)

def BufferStream.bytes : List UInt8 := block s.buffer 0 s.position

/-- `Stream_EnsureCapacity`, when memory is available: the new part of the buffer is cleared, and
the length becomes the new capacity. -/
def streamEnsureCapacity (size : Nat) : Except Stop BufferStream :=
  if small : s.capacity < size then
    match grown : doubleCapacity size size s.capacity with
    | .error stop => .error stop
    | .ok capacity =>
      have enough : s.capacity < capacity := Nat.lt_of_lt_of_le small (doubleCapacity_ge grown)
      .ok
        { buffer := ⟨fun i => if s.capacity ≤ i ∧ i < capacity then 0 else s.buffer i⟩
          position := s.position
          length := capacity
          capacity := capacity
          inside := Nat.le_trans s.inside (Nat.le_of_lt enough)
          positive := Nat.lt_trans s.positive enough }
  else .ok s

def streamEnsureRemaining (size : Nat) : Except Stop BufferStream :=
  if s.position + size > s.capacity then streamEnsureCapacity s (s.capacity + size) else .ok s

def streamSealLength : BufferStream := { s with length := s.position }

def streamRewind : BufferStream := { s with position := 0, inside := Nat.zero_le _ }

def streamReceive (data : List UInt8) : Except Stop BufferStream :=
  if fits : s.position + data.length ≤ s.capacity then
    .ok { s with
      buffer := blit s.buffer s.position data, position := s.position + data.length, inside := fits }
  else .error .assertion

structure TransportRead where
  status : Int
  stream : BufferStream
  bio : Source

/-- The loop of `transport_read_layer`: it goes on until it has got `bytes` bytes, or a read is to
be retried. -/
def transportReadLayerLoop : Nat → Source → Nat → List UInt8 × Source
  | 0, bio, _ => ([], bio)
  | fuel + 1, bio, bytes =>
    if bytes = 0 then ([], bio)
    else
      let read := bio.read bytes
      if read.status ≤ 0 then ([], read.source)
      else
        let rest := transportReadLayerLoop fuel read.source (bytes - read.data.length)
        (read.data ++ rest.1, rest.2)

variable (bio : Source)

/-- Every round but the last one gets a byte. -/
def transportReadLayer (bytes : Nat) : List UInt8 × Source := transportReadLayerLoop bytes bio bytes

def transportReadLayerBytes (toRead : Nat) : Except Stop TransportRead :=
  let read := transportReadLayer bio toRead
  if read.1.length = 0 then .ok ⟨0, s, read.2⟩
  else do
    let s ← streamReceive s read.1
    .ok ⟨if read.1.length = toRead then 1 else 0, s, read.2⟩

/-- The length that the first bytes of a PDU give it: 0 if there are too few of them, -1 if it is
invalid. -/
def parseDefaultModePdu : List UInt8 → Int
  | [] => 0
  | version :: bytes =>
    if version = 0x03 then
      match bytes with
      | _ :: high :: low :: _ =>
        let pduLength := high.toNat <<< 8 ||| low.toNat
        if pduLength < 7 ∨ pduLength > 0xFFFF then -1 else pduLength
      | _ => 0
    else
      match bytes with
      | [] => 0
      | length1 :: bytes =>
        if length1 &&& 0x80 ≠ 0 then
          match bytes with
          | [] => 0
          | length2 :: _ =>
            let pduLength := (length1 &&& 0x7F).toNat <<< 8 ||| length2.toNat
            if pduLength < 3 ∨ pduLength > 0x8000 then -1 else pduLength
        else
          let pduLength := length1.toNat
          if pduLength < 3 ∨ pduLength > 0x8000 then -1 else pduLength

structure ParsedPdu where
  status : Int
  incomplete : Bool
  stream : BufferStream

def transportParsePdu : ParsedPdu :=
  let s := streamSealLength s
  let pduLength := parseDefaultModePdu (block s.buffer 0 s.length)
  if pduLength ≤ 0 then ⟨pduLength, true, s⟩
  else if s.length > pduLength then ⟨-1, true, s⟩
  else ⟨pduLength, s.length < pduLength, s⟩

/-! ## PDUs -/

inductive HeaderRead where
  | returned (read : TransportRead)
  | parsed (read : TransportRead)

def transportReadHeader : Nat → BufferStream → Source → Except Stop HeaderRead
  | 0, _, _ => .error .loops
  | fuel + 1, s, bio =>
    let parse := transportParsePdu s
    if parse.status = 0 ∧ parse.incomplete then do
      let s ← streamEnsureRemaining parse.stream 1
      let read ← transportReadLayerBytes s bio 1
      if read.status ≠ 1 then .ok (.returned read) else transportReadHeader fuel read.stream read.bio
    else .ok (.parsed ⟨parse.status, parse.stream, bio⟩)

def transportFinishPdu : TransportRead :=
  let s := streamRewind (streamSealLength s)
  ⟨s.length, s, bio⟩

def transportReadBody (pduLength : Nat) : Except Stop TransportRead := do
  let s ← streamEnsureCapacity s pduLength
  if s.position > pduLength then .ok ⟨-1, s, bio⟩
  else if s.position < pduLength then do
    let read ← transportReadLayerBytes s bio (pduLength - s.position)
    if read.status ≠ 1 then .ok read else .ok (transportFinishPdu read.stream read.bio)
  else .ok (transportFinishPdu s bio)

/-- `transport_default_read_pdu`; no header has more than four bytes, so the fifth parse is the last
one. -/
def transportReadPdu : Except Stop TransportRead := do
  match ← transportReadHeader 5 s bio with
  | .returned read => .ok read
  | .parsed read =>
    if read.status < 0 then .ok { read with status := -1 }
    else transportReadBody read.stream read.bio read.status.toNat

structure TransportSession where
  stream : BufferStream
  bio : Source
  returned : List TransportRead

/-- The caller comes back with the same stream until it gets a PDU, and then goes on with the one
`supply` gives. -/
def transportCall (supply : BufferStream → BufferStream) (session : TransportSession) :
    Except Stop TransportSession := do
  let read ← transportReadPdu session.stream session.bio
  if read.status < 0 then .error .refused
  else if read.status = 0 then .ok ⟨read.stream, read.bio, session.returned⟩
  else .ok ⟨supply read.stream, read.bio, session.returned ++ [read]⟩

def transportCalls (supply : BufferStream → BufferStream) :
    Nat → TransportSession → Except Stop TransportSession
  | 0, session => .ok session
  | calls + 1, session => do
    let session ← transportCall supply session
    transportCalls supply calls session

end KvmServer.Core
