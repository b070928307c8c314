import Mathlib

/-! # Ring buffer (`utils/ringbuffer.c`)

The buffer is a list of exactly the bytes that are allocated; a copy that would leave it has no result.
Allocations succeed, and what newly allocated memory contains is an argument of every call that
allocates. -/

namespace KvmServer.Utils

structure RingBuffer where
  (initialSize freeSize size readPtr writePtr : Nat)
  buffer : List UInt8
deriving DecidableEq, Repr

/-! ## Memory -/

variable (fresh : Nat → UInt8)

/-- What `malloc` leaves at the addresses `start ..`. -/
def freshBytes (start n : Nat) : List UInt8 := (List.range' start n).map fresh

variable (buffer : List UInt8)

def realloc (n : Nat) : List UInt8 :=
  buffer.take n ++ freshBytes fresh buffer.length (n - buffer.length)

def copyTo (offset : Nat) (data : List UInt8) : Option (List UInt8) :=
  if offset + data.length ≤ buffer.length then
    some (buffer.take offset ++ data ++ buffer.drop (offset + data.length))
  else none

def bytesAt (offset n : Nat) : Option (List UInt8) :=
  if offset + n ≤ buffer.length then some ((buffer.drop offset).take n) else none

/-! ## The operations -/

def ringbufferInit (initialSize : Nat) : RingBuffer :=
  { initialSize := initialSize
    freeSize := initialSize
    size := initialSize
    readPtr := 0
    writePtr := 0
    buffer := freshBytes fresh 0 initialSize }

variable (rb : RingBuffer)

def ringbufferUsed : Nat := rb.size - rb.freeSize

variable (rb : RingBuffer)

def ringbufferLinearise (targetSize : Nat) : Option (List UInt8) :=
  let newData := freshBytes fresh 0 targetSize
  if rb.readPtr < rb.writePtr then do
    copyTo newData 0 (← bytesAt rb.buffer rb.readPtr (ringbufferUsed rb))
  else do
    let newData ← copyTo newData 0 (← bytesAt rb.buffer rb.readPtr (rb.size - rb.readPtr))
    copyTo newData (rb.size - rb.readPtr) (← bytesAt rb.buffer 0 rb.writePtr)

def ringbufferRealloc (targetSize : Nat) : Option RingBuffer := do
  let rb ←
    if rb.writePtr = rb.readPtr then
      some { rb with readPtr := 0, writePtr := 0, buffer := realloc fresh rb.buffer targetSize }
    else if rb.writePtr ≥ rb.readPtr ∧ rb.writePtr < targetSize then
      some { rb with buffer := realloc fresh rb.buffer targetSize }
    else do
      let newData ← ringbufferLinearise fresh rb targetSize
      some { rb with readPtr := 0, writePtr := rb.size - rb.freeSize, buffer := newData }
  -- freeSize += targetSize - size, which may be negative
  return { rb with freeSize := rb.freeSize + targetSize - rb.size, size := targetSize }

def ringbufferStore (data : List UInt8) : Option RingBuffer := do
  let sz := data.length
  let toWrite := if rb.size - rb.writePtr < sz then rb.size - rb.writePtr else sz
  let buffer ← copyTo rb.buffer rb.writePtr (data.take toWrite)
  let buffer ← copyTo buffer 0 (data.drop toWrite)
  return { rb with
    buffer := buffer
    writePtr := (rb.writePtr + sz) % rb.size
    freeSize := rb.freeSize - sz }

def ringbufferWrite (data : List UInt8) : Option RingBuffer := do
  let sz := data.length
  let rb ← if rb.freeSize ≤ sz then ringbufferRealloc fresh rb (rb.size + sz) else some rb
  ringbufferStore rb data

def linearRoom (sz : Nat) : Option (RingBuffer × Nat) :=
  let rb := if rb.writePtr = rb.readPtr then { rb with readPtr := 0, writePtr := 0 } else rb
  if rb.writePtr + sz < rb.size then some (rb, rb.writePtr)
  else do
    -- as a size_t a negative difference is beyond every buffer
    let moved ← if rb.writePtr < rb.readPtr then none
      else bytesAt rb.buffer rb.readPtr (rb.writePtr - rb.readPtr)
    let buffer ← copyTo rb.buffer 0 moved
    let used := rb.size - rb.freeSize
    return ({ rb with buffer := buffer, readPtr := 0, writePtr := used }, used)

def ringbufferEnsureLinearWrite (sz : Nat) : Option (RingBuffer × Nat) := do
  let rb ←
    if rb.freeSize < sz then ringbufferRealloc fresh rb (rb.size + sz - rb.freeSize + 32) else some rb
  linearRoom rb sz

/-- Nothing is committed when `FALSE` is returned. -/
def ringbufferCommitWrittenBytes (sz : Nat) : RingBuffer × Bool :=
  if sz < 1 then (rb, true)
  else if rb.writePtr + sz > rb.size then (rb, false)
  else ({ rb with writePtr := (rb.writePtr + sz) % rb.size, freeSize := rb.freeSize - sz }, true)

def chunkAt (offset n : Nat) : Option (List (List UInt8)) :=
  if n ≠ 0 then (bytesAt buffer offset n).map ([·]) else some []

def ringbufferPeek (sz : Nat) : Option (List (List UInt8)) :=
  if sz < 1 then some []
  else
    let remaining := if rb.size - rb.freeSize < sz then rb.size - rb.freeSize else sz
    let toRead := if rb.readPtr + remaining > rb.size then rb.size - rb.readPtr else remaining
    do
      let first ← chunkAt rb.buffer rb.readPtr toRead
      let second ← chunkAt rb.buffer 0 (remaining - toRead)
      return first ++ second

/-- `none` is the failing assertion, or a copy outside of the buffer. -/
def ringbufferCommitReadBytes (sz : Nat) : Option RingBuffer :=
  if sz < 1 then some rb
  else if rb.size - rb.freeSize < sz then none
  else
    let rb := { rb with readPtr := (rb.readPtr + sz) % rb.size, freeSize := rb.freeSize + sz }
    if rb.size ≠ rb.initialSize ∧ ringbufferUsed rb < rb.initialSize / 2 then
      ringbufferRealloc fresh rb rb.initialSize
    else some rb

end KvmServer.Utils
