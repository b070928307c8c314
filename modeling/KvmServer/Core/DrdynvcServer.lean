import KvmServer.Winpr.Stream

/-! # Dynamic channels on the server (`core/server.c`)

The chunks of the static channel drdynvc are collected in a stream that grows with the PDUs and
keeps what was there before.  A PDU is parsed as soon as its last chunk has arrived.  Allocation
does not fail. -/

namespace KvmServer.Core
open Lib Winpr

def UINT16_MAX : Nat := 2 ^ 16 - 1
def UINT32_MAX : Nat := 2 ^ 32 - 1

/-! ## Streams that grow -/

structure ReceiveData where
  buffer : List UInt8
  position : Nat
  inside : position ≤ buffer.length
  allocated : 0 < buffer.length

def doubledCapacity (capacity size : Nat) (allocated : 0 < capacity) : Nat :=
  if 2 * capacity < size then doubledCapacity (2 * capacity) size (by omega) else 2 * capacity
termination_by size - capacity

theorem le_doubledCapacity (cap size : Nat) (allocated : 0 < cap) :
    size ≤ doubledCapacity cap size allocated := by
  induction cap, allocated using doubledCapacity.induct size with
  | case1 cap allocated less ih =>
    rw [doubledCapacity, if_pos less]
    exact ih
  | case2 cap allocated room =>
    rw [doubledCapacity, if_neg room]
    omega

variable (s : ReceiveData)

def ReceiveData.rewind : ReceiveData := { s with position := 0, inside := Nat.zero_le _ }

def ReceiveData.grow (size : Nat) : ReceiveData where
  buffer := s.buffer ++
    List.replicate
      (doubledCapacity s.buffer.length (s.buffer.length + size) s.allocated - s.buffer.length) 0
  position := s.position
  inside := by
    rw [List.length_append]
    exact Nat.le_add_right_of_le s.inside
  allocated := by
    rw [List.length_append]
    exact Nat.add_pos_left s.allocated _

def ReceiveData.ensureRemainingCapacity (size : Nat) : ReceiveData :=
  if s.position + size > s.buffer.length then s.grow size else s

variable (s : ReceiveData) (size : Nat)

theorem ReceiveData.ensureRemainingCapacity_position :
    (s.ensureRemainingCapacity size).position = s.position := by
  unfold ReceiveData.ensureRemainingCapacity
  split
  · rfl
  · rfl

theorem ReceiveData.ensureRemainingCapacity_room :
    (s.ensureRemainingCapacity size).position + size ≤
    (s.ensureRemainingCapacity size).buffer.length := by
  unfold ReceiveData.ensureRemainingCapacity
  split
  · have inside := s.inside
    have big := le_doubledCapacity s.buffer.length (s.buffer.length + size) s.allocated
    simp only [ReceiveData.grow, List.length_append, List.length_replicate]
    omega
  · omega

def ReceiveData.write (s : ReceiveData) (data : List UInt8)
    (room : s.position + data.length ≤ s.buffer.length) :
    ReceiveData where
  buffer := s.buffer.take s.position ++ (data ++ s.buffer.drop (s.position + data.length))
  position := s.position + data.length
  inside := by
    simp only [List.length_append, List.length_take, List.length_drop]
    omega
  allocated := by
    have allocated := s.allocated
    simp only [List.length_append, List.length_take, List.length_drop]
    omega

/-! ## Channels -/

inductive DvcOpenState where
  | none
  | succeeded
  | failed
  | closed
deriving DecidableEq

inductive ChannelMessage where
  | data (bytes : List UInt8)
  | quit
deriving DecidableEq

structure PeerChannel where
  channelId : Nat
  dvcOpenState : DvcOpenState
  dvcTotalLength : Nat
  receiveData : ReceiveData
  queue : List ChannelMessage

structure VirtualChannelManager where
  ready : Bool
  dynamicVirtualChannels : Nat → Option PeerChannel
  dvcCreationStatus : Nat → Nat → Bool

structure Span where
  (start length : Nat)
deriving DecidableEq

structure ChannelRead where
  channel : PeerChannel
  spans : List Span
  result : Except Stop Bool

variable (channel : PeerChannel)

def wtsQueueReceiveData (buffer : List UInt8) : PeerChannel × Except Stop Bool :=
  if channel.channelId ≤ UINT16_MAX then
    ({ channel with queue := channel.queue ++ [.data buffer] }, .ok true)
  else (channel, .error .assertion)

def variableWidth : Nat → Option Nat
  | 0 => some 1
  | 1 => some 2
  | 2 => some 4
  | _ => none

def wtsReadVariableUint (buffer : List UInt8) (pos cbLen : Nat) : Option (Nat × Nat) :=
  match variableWidth cbLen with
  | none => none
  | some width =>
    if buffer.length - pos < width then none else some (leValue ((buffer.drop pos).take width), width)

def bytesAt (buffer : List UInt8) (pos length : Nat) : List UInt8 := (buffer.drop pos).take length

def wtsReadDrdynvcCreateResponse (dvcCreationStatus : Nat → Nat → Bool)
    (channel : PeerChannel) (buffer : List UInt8)
    (pos length : Nat) : ChannelRead :=
  if length < 4 then ⟨channel, [], .ok false⟩
  else if buffer.length - pos < 4 then ⟨channel, [], .error .assertion⟩
  else
    let creationStatus := leValue (bytesAt buffer pos 4)
    -- negative as an INT32
    let dvcOpenState := if creationStatus ≥ 2 ^ 31 then DvcOpenState.failed else .succeeded
    ⟨{ channel with dvcOpenState := dvcOpenState }, [⟨pos, 4⟩],
      .ok (dvcCreationStatus channel.channelId creationStatus)⟩

def wtsStoreDataFirst (buffer : List UInt8) (pos length : Nat) : ChannelRead :=
  if length > channel.dvcTotalLength then ⟨channel, [], .ok false⟩
  else
    let receiveData := channel.receiveData.rewind.ensureRemainingCapacity channel.dvcTotalLength
    let data := bytesAt buffer pos length
    if room : receiveData.position + data.length ≤ receiveData.buffer.length then
      ⟨{ channel with receiveData := receiveData.write data room }, [⟨pos, length⟩], .ok true⟩
    else ⟨{ channel with receiveData := receiveData }, [], .error .assertion⟩

def wtsReadDrdynvcDataFirst (buffer : List UInt8) (pos cbLen length : Nat) : ChannelRead :=
  match wtsReadVariableUint buffer pos cbLen with
  | none => ⟨channel, [], .ok false⟩
  | some (dvcTotalLength, value) =>
    let read := wtsStoreDataFirst { channel with dvcTotalLength := dvcTotalLength } buffer (pos + value)
      (if value > length then 0 else length - value)
    { read with spans := ⟨pos, value⟩ :: read.spans }

def wtsReadDrdynvcData (buffer : List UInt8) (pos length : Nat) : ChannelRead :=
  let data := bytesAt buffer pos length
  if channel.dvcTotalLength > 0 then
    if channel.receiveData.position + length > channel.dvcTotalLength then
      ⟨{ channel with dvcTotalLength := 0 }, [], .ok false⟩
    else if room : channel.receiveData.position + data.length ≤ channel.receiveData.buffer.length then
      let channel := { channel with receiveData := channel.receiveData.write data room }
      if channel.receiveData.position ≥ channel.dvcTotalLength then
        let (channel, result) :=
          wtsQueueReceiveData channel (channel.receiveData.buffer.take channel.dvcTotalLength)
        ⟨{ channel with dvcTotalLength := 0 }, [⟨pos, length⟩], result⟩
      else ⟨channel, [⟨pos, length⟩], .ok true⟩
    else ⟨channel, [], .error .assertion⟩
  else
    let (channel, result) := wtsQueueReceiveData channel data
    ⟨channel, [⟨pos, length⟩], result⟩

def wtsReadDrdynvcCloseResponse : PeerChannel :=
  { channel with dvcOpenState := .closed, queue := channel.queue ++ [.quit] }

/-! ## PDUs -/

inductive DynamicChannelPdu where
  | createRequest
  | dataFirst
  | data
  | closeRequest
  | capabilityRequest
  | dataFirstCompressed
  | dataCompressed
  | softSyncRequest
  | softSyncResponse
  | unknown
deriving DecidableEq

def DynamicChannelPdu.ofCode : Nat → DynamicChannelPdu
  | 1 => .createRequest
  | 2 => .dataFirst
  | 3 => .data
  | 4 => .closeRequest
  | 5 => .capabilityRequest
  | 6 => .dataFirstCompressed
  | 7 => .dataCompressed
  | 8 => .softSyncRequest
  | 9 => .softSyncResponse
  | _ => .unknown

def pduCmd (value : UInt8) : DynamicChannelPdu := .ofCode ((value &&& 0xf0) >>> 4).toNat
def pduSp (value : UInt8) : Nat := ((value &&& 0x0c) >>> 2).toNat
def pduCbChId (value : UInt8) : Nat := (value &&& 0x03).toNat

structure PduRead where
  vcm : VirtualChannelManager
  spans : List Span
  result : Except Stop Bool

variable (vcm : VirtualChannelManager)

def wtsReadDrdynvcCapabilitiesResponse (buffer : List UInt8) (length : Nat) : PduRead :=
  if length < 3 then ⟨vcm, [], .ok false⟩
  else
    let version := leValue (bytesAt buffer 2 2)
    if version < 1 then ⟨vcm, [⟨1, 3⟩], .ok false⟩ else ⟨{ vcm with ready := true }, [⟨1, 3⟩], .ok true⟩

def wtsReadDrdynvcChannel (dvc : PeerChannel) (cmd : DynamicChannelPdu)
    (buffer : List UInt8) (pos spent length : Nat) : ChannelRead :=
  match cmd with
  | .createRequest => wtsReadDrdynvcCreateResponse vcm.dvcCreationStatus dvc buffer pos length
  | .dataFirst =>
    if dvc.dvcOpenState ≠ .succeeded then ⟨dvc, [], .ok true⟩
    else wtsReadDrdynvcDataFirst dvc buffer pos spent length
  | .data =>
    if dvc.dvcOpenState ≠ .succeeded then ⟨dvc, [], .ok true⟩
      else wtsReadDrdynvcData dvc buffer pos length
  | .closeRequest => ⟨wtsReadDrdynvcCloseResponse dvc, [], .ok true⟩
  | _ => ⟨dvc, [], .ok true⟩

variable (receiveData : ReceiveData)

/-- A PDU with a channel id.  `length` is a `size_t` from which the width of the id is taken, and
is cast to a `UINT32`. -/
def wtsReadDrdynvcChannelPdu (value : UInt8) (length : Nat) : PduRead :=
  match wtsReadVariableUint receiveData.buffer 1 (pduCbChId value) with
  | none => ⟨vcm, [], .ok false⟩
  | some (channelId, val) =>
    match vcm.dynamicVirtualChannels channelId with
    | none => ⟨vcm, [⟨1, val⟩], .ok true⟩
    | some dvc =>
      let length := (length + 2 ^ 64 - val) % 2 ^ 64
      let read := wtsReadDrdynvcChannel vcm dvc (pduCmd value) receiveData.buffer (1 + val) (pduSp value)
        (length % 2 ^ 32)
      ⟨{ vcm with dynamicVirtualChannels := Function.update vcm.dynamicVirtualChannels channelId read.channel },
        ⟨1, val⟩ :: read.spans, read.result⟩

def wtsReadDrdynvcCommand (value : UInt8) (length : Nat) : PduRead :=
  let cmd := pduCmd value
  if cmd = .capabilityRequest then wtsReadDrdynvcCapabilitiesResponse vcm receiveData.buffer length
  else if ¬vcm.ready then ⟨vcm, [], .ok true⟩
  else if cmd = .softSyncRequest then ⟨vcm, [], .ok false⟩
  else if cmd = .softSyncResponse then ⟨vcm, [], .ok true⟩
  else wtsReadDrdynvcChannelPdu vcm receiveData value length

def wtsReadDrdynvcPdu : PduRead :=
  if receiveData.position < 1 ∨ receiveData.position > UINT32_MAX then ⟨vcm, [], .ok false⟩
  else
    let read :=
      wtsReadDrdynvcCommand vcm receiveData (receiveData.buffer.headD 0) (receiveData.position - 1)
    { read with spans := ⟨0, 1⟩ :: read.spans }

/-! ## Chunks -/

structure ChannelChunk where
  (first last : Bool)
  data : List UInt8

structure DrdynvcServer where
  vcm : VirtualChannelManager
  receiveData : ReceiveData

structure ChunkRead where
  pduLength : Nat
  spans : List Span
  result : Except Stop Bool

def receiveChunk (chunk : ChannelChunk) : ReceiveData :=
  let receiveData := if chunk.first then receiveData.rewind else receiveData
  (receiveData.ensureRemainingCapacity chunk.data.length).write chunk.data
    (receiveData.ensureRemainingCapacity_room chunk.data.length)

def wtsProcessChannelData (server : DrdynvcServer) (chunk : ChannelChunk) : DrdynvcServer × ChunkRead :=
  let receiveData := receiveChunk server.receiveData chunk
  if chunk.last then
    let read := wtsReadDrdynvcPdu server.vcm receiveData
    (⟨read.vcm, receiveData.rewind⟩, ⟨receiveData.position, read.spans, read.result⟩)
  else ({ server with receiveData := receiveData }, ⟨receiveData.position, [], .ok true⟩)

/-! ## Writing -/

def DVC_MAX_DATA_PDU_SIZE : Nat := 1600

def writeVariableUint (val : Nat) : Nat × List UInt8 :=
  if val ≤ 0xFF then (0, leBytes 1 val)
  else if val ≤ 0xFFFF then (1, leBytes 2 val)
  else (2, leBytes 4 val)

def wtsWriteVariableUint (val : Nat) : Nat × List UInt8 := writeVariableUint val

theorem writeVariableUint_length (val : Nat) :
    0 < (writeVariableUint val).2.length ∧ (writeVariableUint val).2.length ≤ 4 := by
  unfold writeVariableUint
  split
  · rw [leBytes_length]
    decide
  split
  iterate 2
    · rw [leBytes_length]
      decide

/-- The loop of `FreeRDP_WTSVirtualChannelWrite` for a dynamic channel: the PDUs that are queued for
sending. -/
def wtsVirtualChannelWriteLoop (channelId : Nat) (first : Bool) (buffer : List UInt8) :
    List (List UInt8) :=
  if buffer.length = 0 then []
  else
    let id := wtsWriteVariableUint channelId
    let remaining := DVC_MAX_DATA_PDU_SIZE - (1 + id.2.length)
    if first ∧ buffer.length > remaining then
      let length := wtsWriteVariableUint buffer.length
      let written := min (remaining - length.2.length) buffer.length
      (UInt8.ofNat ((2 <<< 4) ||| (length.1 <<< 2) ||| id.1) ::
        (id.2 ++ (length.2 ++ buffer.take written))) ::
        wtsVirtualChannelWriteLoop channelId false (buffer.drop written)
    else
      let written := min remaining buffer.length
      (UInt8.ofNat ((3 <<< 4) ||| id.1) :: (id.2 ++ buffer.take written)) ::
        wtsVirtualChannelWriteLoop channelId false (buffer.drop written)
termination_by buffer.length
decreasing_by
  · have idLength := writeVariableUint_length channelId
    have lengthLength := writeVariableUint_length buffer.length
    rw [List.length_drop]
    unfold wtsWriteVariableUint DVC_MAX_DATA_PDU_SIZE
    omega
  have idLength := writeVariableUint_length channelId
  rw [List.length_drop]
  unfold wtsWriteVariableUint DVC_MAX_DATA_PDU_SIZE
  omega

def wtsVirtualChannelWrite (channelId : Nat) (buffer : List UInt8) : List (List UInt8) :=
  wtsVirtualChannelWriteLoop channelId true buffer

end KvmServer.Core
