import KvmServer.Core.DrdynvcServer

/-! # Dynamic channels on the client (`channels/drdynvc/client/drdynvc_main.c`)

Messages are written in PDUs of at most 1600 bytes, and the data of a channel is collected until a
message is complete.  Sending and allocation do not fail; compressed data is left out. -/

namespace KvmServer.Core
open Lib Winpr

def CHANNEL_CHUNK_LENGTH : Nat := 1600

/-! ## Writing -/

def drdynvcWriteVariableUint (val : Nat) : Nat × List UInt8 := writeVariableUint val

/-- `while (dataSize > 0)`: the rest of a message. -/
def drdynvcWriteRest (channelId : Nat) (data : List UInt8) : List (List UInt8) :=
  if data.length = 0 then []
  else
    let id := drdynvcWriteVariableUint channelId
    let pos := 1 + id.2.length
    let chunkLength :=
      if data.length > CHANNEL_CHUNK_LENGTH - pos then CHANNEL_CHUNK_LENGTH - pos else data.length
    (UInt8.ofNat ((3 <<< 4) ||| id.1) :: (id.2 ++ data.take chunkLength)) ::
      drdynvcWriteRest channelId (data.drop chunkLength)
termination_by data.length
decreasing_by
  have idLength := writeVariableUint_length channelId
  rw [List.length_drop]
  unfold drdynvcWriteVariableUint CHANNEL_CHUNK_LENGTH
  split <;> omega

def drdynvcWriteData (channelId : Nat) (data : List UInt8) : List (List UInt8) :=
  let id := drdynvcWriteVariableUint channelId
  let pos := 1 + id.2.length
  if data.length = 0 then []
  else if data.length ≤
    CHANNEL_CHUNK_LENGTH - pos then [UInt8.ofNat ((3 <<< 4) ||| id.1) :: (id.2 ++ data)]
  else
    let length := drdynvcWriteVariableUint data.length
    let chunkLength := CHANNEL_CHUNK_LENGTH - (pos + length.2.length)
    (UInt8.ofNat ((2 <<< 4) ||| id.1 ||| (length.1 <<< 2)) ::
      (id.2 ++ (length.2 ++ data.take chunkLength))) ::
      drdynvcWriteRest channelId (data.drop chunkLength)

/-! ## Receiving -/

/-- `dvcData` is the stream a message is collected in, up to its position. -/
structure DvcmanChannel where
  running : Bool
  dvcData : Option (List UInt8)
  dvcDataLength : Nat
  /-- What `on_receive` has been called with. -/
  received : List (List UInt8)

structure Dvcman where
  channelsById : Nat → Option DvcmanChannel
  /-- `on_receive` succeeds. -/
  onReceive : List UInt8 → Bool

def dvcmanCallOnReceive (onReceive : List UInt8 → Bool) (channel : DvcmanChannel)
    (data : List UInt8) : DvcmanChannel × Bool :=
  ({ channel with received := channel.received ++ [data] }, onReceive data)

def dvcmanReceiveChannelDataFirst (channel : DvcmanChannel) (length : Nat) : DvcmanChannel :=
  { channel with dvcData := some [], dvcDataLength := length }

def dvcmanReceiveChannelData (onReceive : List UInt8 → Bool) (channel : DvcmanChannel)
    (data : List UInt8) :
    DvcmanChannel × Bool :=
  match channel.dvcData with
  | some collected =>
    if collected.length +
      data.length > channel.dvcDataLength then ({ channel with dvcData := none }, false)
    else
      let collected := collected ++ data
      if collected.length ≥ channel.dvcDataLength then
        let (channel, status) := dvcmanCallOnReceive onReceive channel collected
        ({ channel with dvcData := none }, status)
      else ({ channel with dvcData := some collected }, true)
  | none => dvcmanCallOnReceive onReceive channel data

def closeUnless (result : DvcmanChannel × Bool) : DvcmanChannel :=
  if result.2 then result.1 else { result.1 with running := false }

def drdynvcCblenToBytes : Nat → Nat
  | 0 => 1
  | 1 => 2
  | _ => 4

def drdynvcReadVariableUint (bytes : List UInt8) (cbLen : Nat) : Nat × List UInt8 :=
  (leValue (bytes.take (drdynvcCblenToBytes cbLen)), bytes.drop (drdynvcCblenToBytes cbLen))

def drdynvcProcessDataFirst (dvcman : Dvcman) (spent cbChId : Nat) (bytes : List UInt8) : Dvcman :=
  if bytes.length < drdynvcCblenToBytes cbChId + drdynvcCblenToBytes spent then dvcman
  else
    let (channelId, bytes) := drdynvcReadVariableUint bytes cbChId
    let (length, bytes) := drdynvcReadVariableUint bytes spent
    match dvcman.channelsById channelId with
    | none => dvcman
    | some channel =>
      if ¬channel.running then dvcman
      else
        let channel := closeUnless
          (dvcmanReceiveChannelData dvcman.onReceive
            (dvcmanReceiveChannelDataFirst channel length) bytes)
        { dvcman with channelsById := Function.update dvcman.channelsById channelId channel }

def drdynvcProcessData (dvcman : Dvcman) (cbChId : Nat) (bytes : List UInt8) : Dvcman :=
  if bytes.length < drdynvcCblenToBytes cbChId then dvcman
  else
    let (channelId, bytes) := drdynvcReadVariableUint bytes cbChId
    match dvcman.channelsById channelId with
    | none => dvcman
    | some channel =>
      if ¬channel.running then dvcman
      else
        let channel := closeUnless (dvcmanReceiveChannelData dvcman.onReceive channel bytes)
        { dvcman with channelsById := Function.update dvcman.channelsById channelId channel }

/-- The PDUs with data; the others are not modelled. -/
def drdynvcOrderRecv (dvcman : Dvcman) : List UInt8 → Option Dvcman
  | [] => some dvcman
  | value :: bytes =>
    match pduCmd value with
    | .dataFirst => some (drdynvcProcessDataFirst dvcman (pduSp value) (pduCbChId value) bytes)
    | .data => some (drdynvcProcessData dvcman (pduCbChId value) bytes)
    | _ => none

end KvmServer.Core
