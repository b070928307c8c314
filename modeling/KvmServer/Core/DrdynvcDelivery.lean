import KvmServer.Core.DrdynvcClient
import KvmServer.Core.DrdynvcConfined

/-! # Messages over dynamic channels

Client and server cut a message into the same PDUs, and each of them puts the messages of the other
together again; but the server only queues messages of channels whose id fits sixteen bits. -/

namespace KvmServer.Core
open Lib Winpr List

/-! ## PDUs -/

variable (channelId : Nat)

def dataPdu (data : List UInt8) : List UInt8 :=
  UInt8.ofNat ((3 <<< 4) ||| (writeVariableUint channelId).1) ::
    ((writeVariableUint channelId).2 ++ data)

def dataFirstPdu (channelId total : Nat) (data : List UInt8) : List UInt8 :=
  UInt8.ofNat ((2 <<< 4) ||| ((writeVariableUint total).1 <<< 2) ||| (writeVariableUint channelId).1) ::
    ((writeVariableUint channelId).2 ++ ((writeVariableUint total).2 ++ data))

inductive MessagePdus (channelId : Nat) (message : List UInt8) : List (List UInt8) → Prop
  | whole (short : message.length ≤ 1600) : MessagePdus channelId message [dataPdu channelId message]
  | parts {first : List UInt8} {chunks : List (List UInt8)} (split : first ++ chunks.flatten = message)
      (short : first.length ≤ 1600) (some : chunks ≠ [])
      (sizes : ∀ chunk ∈ chunks, 0 < chunk.length ∧ chunk.length ≤ 1600) :
      MessagePdus channelId message
        (dataFirstPdu channelId message.length first :: chunks.map (dataPdu channelId))

theorem drdynvcWriteRest_chunks (data : List UInt8) :
    ∃ chunks : List (List UInt8), drdynvcWriteRest channelId data = chunks.map (dataPdu channelId) ∧
      chunks.flatten = data ∧ ∀ chunk ∈ chunks, 0 < chunk.length ∧ chunk.length ≤ 1600 := by
  induction data using drdynvcWriteRest.induct channelId with
  | case1 data empty =>
    rw [drdynvcWriteRest, if_pos empty]
    exact ⟨[], rfl, (length_eq_zero_iff.mp empty).symm, fun _ mem => absurd mem not_mem_nil⟩
  | case2 data some id pos chunkLen ih =>
    obtain ⟨chunks, written, flat, sizes⟩ := ih
    refine ⟨data.take chunkLen :: chunks, ?_, ?_, ?_⟩
    · rw [drdynvcWriteRest, if_neg some]
      rw [map_cons, ← written]
      rfl
    · rw [flatten_cons, flat, take_append_drop]
    intro chunk mem
    obtain rfl | later := mem_cons.mp mem
    · have idLen := writeVariableUint_length channelId
      rw [length_take]
      simp only [chunkLen, pos, id, drdynvcWriteVariableUint, CHANNEL_CHUNK_LENGTH]
      split <;> omega
    · exact sizes chunk later

theorem or_right_comm (a b c : Nat) : a ||| b ||| c = a ||| c ||| b := by
  rw [Nat.or_assoc, Nat.or_comm b c, ← Nat.or_assoc]

variable {message : List UInt8} {wid : Nat} {server : DrdynvcServer}

theorem drdynvcWriteData_pdus (ne : message ≠ []) :
    MessagePdus channelId message (drdynvcWriteData channelId message) := by
  have positive := length_pos_iff.mpr ne
  unfold drdynvcWriteData drdynvcWriteVariableUint CHANNEL_CHUNK_LENGTH
  simp only
  rw [if_neg (by omega)]
  split
  · exact .whole (by omega)
  generalize cut : 1600 - (1 + (writeVariableUint channelId).2.length +
    (writeVariableUint message.length).2.length) = chunkLength
  obtain ⟨_, written, flat, sizes⟩ := drdynvcWriteRest_chunks channelId (message.drop chunkLength)
  rw [written, or_right_comm]
  refine .parts ?_ ?_ ?_ sizes
  · rw [flat, take_append_drop]
  · rw [length_take]
    omega
  rintro rfl
  -- something is left for the next PDU
  have rest : (message.drop chunkLength).length = 0 := by rw [← flat]; rfl
  rw [length_drop] at rest
  omega

theorem channelWriteLoop_rest (buffer : List UInt8) :
    wtsVirtualChannelWriteLoop channelId false buffer = drdynvcWriteRest channelId buffer := by
  induction buffer using drdynvcWriteRest.induct channelId with
  | case1 buffer empty => rw [wtsVirtualChannelWriteLoop, if_pos empty, drdynvcWriteRest, if_pos empty]
  | case2 buffer some id pos chunkLength ih =>
    have same :
        min (DVC_MAX_DATA_PDU_SIZE - (1 + (writeVariableUint channelId).2.length)) buffer.length =
        chunkLength := by
      simp only [chunkLength, pos, id, drdynvcWriteVariableUint, CHANNEL_CHUNK_LENGTH,
        DVC_MAX_DATA_PDU_SIZE]
      split <;> omega
    rw [wtsVirtualChannelWriteLoop, if_neg some, drdynvcWriteRest, if_neg some]
    simp only [Bool.false_eq_true, false_and, if_false, wtsWriteVariableUint, same]
    rw [ih]
    rfl

theorem channelWrite_eq (buffer : List UInt8) :
    wtsVirtualChannelWrite channelId buffer = drdynvcWriteData channelId buffer := by
  unfold wtsVirtualChannelWrite
  rw [wtsVirtualChannelWriteLoop, drdynvcWriteData]
  unfold wtsWriteVariableUint drdynvcWriteVariableUint DVC_MAX_DATA_PDU_SIZE CHANNEL_CHUNK_LENGTH
  simp only
  by_cases empty : buffer.length = 0
  · rw [if_pos empty, if_pos empty]
  rw [if_neg empty, if_neg empty]
  by_cases short : buffer.length ≤ 1600 - (1 + (writeVariableUint channelId).2.length)
  · rw [if_neg (by omega), if_pos short, min_eq_right short, take_length, drop_length,
      wtsVirtualChannelWriteLoop, if_pos length_nil]
  have cut :
    min (1600 - (1 + (writeVariableUint channelId).2.length) - (writeVariableUint buffer.length).2.length)
      buffer.length =
      1600 - (1 + (writeVariableUint channelId).2.length +
        (writeVariableUint buffer.length).2.length) := by omega
  rw [if_pos ⟨trivial, by omega⟩, if_neg short, cut, channelWriteLoop_rest, or_right_comm]

/-! ## Headers -/

theorem writeVariableUint_cases (val : Nat) :
    ∃ code wid, writeVariableUint val = (code, leBytes wid val) ∧ variableWidth code = some wid ∧
      drdynvcCblenToBytes code = wid ∧ code ≤ 2 ∧ (val < 2 ^ 32 → val < 2 ^ (8 * wid)) := by
  by_cases one : val ≤ 0xFF
  · exact ⟨0, 1, if_pos one, rfl, rfl, by decide, fun _ => by omega⟩
  by_cases two : val ≤ 0xFFFF
  · exact ⟨1, 2, (if_neg one).trans (if_pos two), rfl, rfl, by decide, fun _ => by omega⟩
  · exact ⟨2, 4, (if_neg one).trans (if_neg two), rfl, rfl, by decide, id⟩

variable {code channelId : Nat} {dvc : PeerChannel} {val : Nat} (s : ReceiveData)

theorem dataCommand (le : code ≤ 2) :
    pduCmd (UInt8.ofNat ((3 <<< 4) ||| code)) = .data ∧
    pduCbChId (UInt8.ofNat ((3 <<< 4) ||| code)) = code := by
  have all : ∀ code : Fin 3, pduCmd (UInt8.ofNat ((3 <<< 4) ||| code)) = .data ∧
      pduCbChId (UInt8.ofNat ((3 <<< 4) ||| code)) = code := by decide
  exact all ⟨code, by omega⟩

theorem dataFirstCommand {lengthCode : Nat} (le : code ≤ 2) (ltLen : lengthCode ≤ 2) :
    pduCmd (UInt8.ofNat ((2 <<< 4) ||| (lengthCode <<< 2) ||| code)) = .dataFirst ∧
      pduCbChId (UInt8.ofNat ((2 <<< 4) ||| (lengthCode <<< 2) ||| code)) = code ∧
      pduSp (UInt8.ofNat ((2 <<< 4) ||| (lengthCode <<< 2) ||| code)) = lengthCode := by
  have all : ∀ code lengthCode : Fin 3,
      pduCmd (UInt8.ofNat ((2 <<< 4) ||| (lengthCode.val <<< 2) ||| code)) = .dataFirst ∧
      pduCbChId (UInt8.ofNat ((2 <<< 4) ||| (lengthCode.val <<< 2) ||| code)) = code ∧
      pduSp (UInt8.ofNat ((2 <<< 4) ||| (lengthCode.val <<< 2) ||| code)) = lengthCode := by decide
  exact all ⟨code, by omega⟩ ⟨lengthCode, by omega⟩

theorem serverReadVariableUint_written {code wid : Nat} (known : variableWidth code = some wid)
    (fits : val < 2 ^ (8 * wid)) {buffer pre rest : List UInt8}
    (placed : buffer = pre ++ (leBytes wid val ++ rest)) {pos : Nat} (at_ : pre.length = pos) :
    wtsReadVariableUint buffer pos code = some (val, wid) := by
  have room : pos + wid ≤ buffer.length := by
    rw [placed, length_append, length_append, leBytes_length]
    omega
  have value : (buffer.drop pos).take wid = leBytes wid val := by
    rw [placed, drop_left' at_, take_left' (leBytes_length wid val)]
  rw [serverReadVariableUint_of_le known room, value, leValue_leBytes_of_lt fits]

theorem readVariableUint_written (known : drdynvcCblenToBytes code = wid)
    (fits : val < 2 ^ (8 * wid)) (rest : List UInt8) :
    drdynvcReadVariableUint (leBytes wid val ++ rest) code = (val, rest) := by
  have len := leBytes_length wid val
  rw [drdynvcReadVariableUint, known, take_left' len, drop_left' len, leValue_leBytes_of_lt fits]

/-! ## The server -/

theorem receiveChunk_whole (recvData : ReceiveData) (pdu : List UInt8) :
    (receiveChunk recvData ⟨true, true, pdu⟩).position = pdu.length ∧
      ∃ stale, (receiveChunk recvData ⟨true, true, pdu⟩).buffer = pdu ++ stale := by
  have st : (recvData.rewind.ensureRemainingCapacity pdu.length).position = 0 :=
    ReceiveData.ensureRemainingCapacity_position _ _
  unfold receiveChunk ReceiveData.write
  simp only [if_true, st, zero_add, take_zero, nil_append]
  exact ⟨trivial, _, rfl⟩

structure ServerOpen (server : DrdynvcServer) (channelId : Nat) (dvc : PeerChannel) : Prop where
  ready : server.vcm.ready = true
  found : server.vcm.dynamicVirtualChannels channelId = some dvc
  channelId : dvc.channelId = channelId
  opened : dvc.dvcOpenState = .succeeded

theorem ServerOpen.not_closed
    (isOpen : ServerOpen server channelId dvc) : ¬dvc.dvcOpenState ≠ .succeeded :=
    fun closed => closed isOpen.opened

def VirtualChannelManager.withChannel (vcm : VirtualChannelManager) (channelId : Nat)
    (dvc : PeerChannel) :
    VirtualChannelManager :=
  { vcm with dynamicVirtualChannels := Function.update vcm.dynamicVirtualChannels channelId (some dvc) }

def DrdynvcServer.withChannel (server : DrdynvcServer) (channelId : Nat) (dvc : PeerChannel)
    (receiveData : ReceiveData) : DrdynvcServer :=
  ⟨server.vcm.withChannel channelId dvc, receiveData⟩

theorem ServerOpen.withChannel {dvc' : PeerChannel}
    (isOpen : ServerOpen server channelId dvc) (sameId : dvc'.channelId = dvc.channelId)
    (sameSt : dvc'.dvcOpenState = dvc.dvcOpenState) (recvData : ReceiveData) :
    ServerOpen (server.withChannel channelId dvc' recvData) channelId dvc' where
  ready := isOpen.ready
  found := Function.update_self _ _ _
  channelId := sameId.trans isOpen.channelId
  opened := sameSt.trans isOpen.opened

theorem bytesAt_append {buffer pre data stale : List UInt8}
    (placed : buffer = pre ++ (data ++ stale)) {pos : Nat}
    (st : pre.length = pos) : bytesAt buffer pos data.length = data := by
  rw [bytesAt, placed, drop_left' st, take_left]

theorem readPdu_channel {vcm : VirtualChannelManager} {recvData : ReceiveData} {length : Nat}
    {value : UInt8} {rest : List UInt8} (ready : vcm.ready = true)
    (got : vcm.dynamicVirtualChannels channelId = some dvc)
    (known : variableWidth (pduCbChId value) = some wid)
    (fits : channelId < 2 ^ (8 * wid)) (cmd : HasChannelId (pduCmd value))
    (buffer : recvData.buffer = value :: (leBytes wid channelId ++ rest))
    (position : recvData.position = 1 + wid + length) (le : recvData.position ≤ UINT32_MAX) :
    wtsReadDrdynvcPdu vcm recvData = ⟨vcm.withChannel channelId
          (wtsReadDrdynvcChannel vcm dvc (pduCmd value) recvData.buffer (1 + wid)
            (pduSp value) length).channel,
        ⟨0, 1⟩ :: ⟨1, wid⟩ :: (wtsReadDrdynvcChannel vcm dvc (pduCmd value) recvData.buffer
          (1 + wid) (pduSp value) length).spans,
        (wtsReadDrdynvcChannel vcm dvc (pduCmd value) recvData.buffer (1 + wid)
          (pduSp value) length).result⟩ := by
  obtain ⟨notCapability, notReq, notResp⟩ := cmd
  have head : recvData.buffer.headD 0 = value := by rw [buffer]; rfl
  have id := @serverReadVariableUint_written channelId _ wid known fits recvData.buffer [value] rest
    (by rw [buffer]; rfl) 1 rfl
  have left : (recvData.position - 1 + 2 ^ 64 - wid) % 2 ^ 64 % 2 ^ 32 = length := by
    rw [lengthLeft_eq (by omega) le]
    omega
  unfold wtsReadDrdynvcPdu wtsReadDrdynvcCommand wtsReadDrdynvcChannelPdu
  rw [if_neg (by omega), head]
  have run : ¬¬vcm.ready = true := fun no => no ready
  simp only [if_neg notCapability, if_neg run, if_neg notReq, if_neg notResp, id, got, left]
  rfl

theorem serverStep_channel (isOpen : ServerOpen server channelId dvc) {value : UInt8}
    {wid : Nat} {body : List UInt8}
    (known : variableWidth (pduCbChId value) = some wid) (fits : channelId < 2 ^ (8 * wid))
    (cmd : HasChannelId (pduCmd value)) (short : body.length ≤ 2000) :
    ∃ buffer stale receiveData, buffer = value :: (leBytes wid channelId ++ (body ++ stale)) ∧
      (serverStep (some server) ⟨true, true, value :: (leBytes wid channelId ++ body)⟩).1 =
        if (wtsReadDrdynvcChannel server.vcm dvc (pduCmd value) buffer (1 + wid)
          (pduSp value) body.length).result.isOk then some (server.withChannel channelId
            (wtsReadDrdynvcChannel server.vcm dvc (pduCmd value) buffer (1 + wid)
            (pduSp value) body.length).channel receiveData) else none := by
  have narrow := variableWidth_pos known
  obtain ⟨position, stale, buffer⟩ :=
    receiveChunk_whole server.receiveData (value :: (leBytes wid channelId ++ body))
  rw [length_cons, length_append, leBytes_length] at position
  rw [cons_append, append_assoc] at buffer
  have big : 3000 ≤ UINT32_MAX := by decide
  have read := readPdu_channel isOpen.ready isOpen.found known fits cmd buffer
    (by omega : _ = 1 + wid + body.length) (by omega)
  refine ⟨_, stale,
    (receiveChunk server.receiveData ⟨true, true, value :: (leBytes wid channelId ++ body)⟩).rewind, buffer, ?_⟩
  unfold serverStep wtsProcessChannelData
  simp only [if_true, read]
  rfl

/-! ## Data for one channel -/

/-- What is read completes `message` and queues it, if the id of the channel fits sixteen bits. -/
structure QueuesMessage (channel : PeerChannel) (read : ChannelRead) (message : List UInt8) : Prop where
  queued : channel.channelId ≤ UINT16_MAX → read.result = .ok true ∧ read.channel.dvcTotalLength = 0 ∧
    read.channel.queue = channel.queue ++ [.data message] ∧ read.channel.channelId = channel.channelId ∧
    read.channel.dvcOpenState = channel.dvcOpenState
  aborted : UINT16_MAX < channel.channelId → read.result = .error .assertion

theorem readData_whole {channel : PeerChannel} {buffer : List UInt8} {pos : Nat}
    (idle : channel.dvcTotalLength = 0) (placed : bytesAt buffer pos message.length = message) :
    QueuesMessage channel (wtsReadDrdynvcData channel buffer pos message.length) message := by
  have none : ¬channel.dvcTotalLength > 0 := by omega
  unfold wtsReadDrdynvcData wtsQueueReceiveData
  simp only [if_neg none, placed]
  constructor
  · intro lt
    simp only [if_pos lt]
    exact ⟨trivial, idle, trivial, trivial, trivial⟩
  intro big
  simp only [if_neg (not_le.mpr big)]

structure DvcCollecting (channel : PeerChannel) (total : Nat) (collected : List UInt8) : Prop where
  begun : channel.dvcTotalLength = total
  arrived : channel.receiveData.pdu = collected
  room : total ≤ channel.receiveData.buffer.length

theorem ReceiveData.write_pdu (data : List UInt8) (room : s.position + data.length ≤ s.buffer.length) :
    (s.write data room).pdu = s.pdu ++ data := by
  have pre : (s.buffer.take s.position).length = s.position := by
    rw [length_take, min_eq_left s.inside]
  unfold ReceiveData.pdu ReceiveData.write
  simp only
  rw [← append_assoc, take_left']
  rw [length_append, pre]

theorem ReceiveData.write_length (data : List UInt8)
    (room : s.position + data.length ≤ s.buffer.length) :
    (s.write data room).buffer.length = s.buffer.length := by
  unfold ReceiveData.write
  simp only [length_append, length_take, length_drop]
  omega

theorem readDataFirst_collecting {channel : PeerChannel} {buffer first stale pre : List UInt8}
    {pos code wid total : Nat} (known : variableWidth code = some wid) (fits : total < 2 ^ (8 * wid))
    (placed : buffer = pre ++ (leBytes wid total ++ (first ++ stale)))
    (st : pre.length = pos) (short : first.length ≤ total) :
    (wtsReadDrdynvcDataFirst channel buffer pos code (wid + first.length)).result = .ok true ∧
      DvcCollecting
      (wtsReadDrdynvcDataFirst channel buffer pos code (wid + first.length)).channel total first ∧
      (wtsReadDrdynvcDataFirst channel buffer pos code (wid + first.length)).channel.queue =
      channel.queue ∧
      (wtsReadDrdynvcDataFirst channel buffer pos code (wid + first.length)).channel.channelId =
      channel.channelId ∧
      (wtsReadDrdynvcDataFirst channel buffer pos code (wid + first.length)).channel.dvcOpenState =
      channel.dvcOpenState := by
  have read := serverReadVariableUint_written known fits placed st
  have data : bytesAt buffer (pos + wid) first.length = first := by
    apply @bytesAt_append buffer (pre ++ leBytes wid total) first stale
    · rw [placed, append_assoc]
    · rw [length_append, leBytes_length, st]
  have left : (if wid > wid + first.length then 0 else wid + first.length - wid) = first.length := by
    rw [if_neg (by omega)]
    omega
  have rewound : (channel.receiveData.rewind.ensureRemainingCapacity total).position = 0 :=
    ReceiveData.ensureRemainingCapacity_position _ _
  have cap := ReceiveData.ensureRemainingCapacity_room channel.receiveData.rewind total
  have room : (channel.receiveData.rewind.ensureRemainingCapacity total).position + first.length ≤
      (channel.receiveData.rewind.ensureRemainingCapacity total).buffer.length := by omega
  unfold wtsReadDrdynvcDataFirst wtsStoreDataFirst
  simp only [read, left, data, if_neg (not_lt.mpr short : ¬first.length > total), dif_pos room]
  refine ⟨trivial, ⟨rfl, ?_, ?_⟩, trivial, trivial, trivial⟩
  · rw [ReceiveData.write_pdu, ReceiveData.pdu, rewound, take_zero, nil_append]
  rw [ReceiveData.write_length]
  omega

section Collecting
variable {chan : PeerChannel} {buffer data collected : List UInt8} {pos tot : Nat}

section
variable (coll : DvcCollecting chan tot collected)
include coll

theorem DvcCollecting.fits (some : 0 < tot) (le : collected.length + data.length ≤ tot) :
    chan.receiveData.position = collected.length ∧ chan.dvcTotalLength > 0 ∧
      ¬chan.receiveData.position + data.length > chan.dvcTotalLength ∧
      chan.receiveData.position + data.length ≤ chan.receiveData.buffer.length := by
  have position : chan.receiveData.position = collected.length := by
    rw [← coll.arrived, ReceiveData.pdu_length]
  have begun := coll.begun
  have room := coll.room
  exact ⟨position, by omega, by omega, by omega⟩

theorem readData_collecting (placed : bytesAt buffer pos data.length = data)
    (more : collected.length + data.length < tot) :
    (wtsReadDrdynvcData chan buffer pos data.length).result = .ok true ∧
      DvcCollecting (wtsReadDrdynvcData chan buffer pos data.length).channel tot (collected ++ data) ∧
      (wtsReadDrdynvcData chan buffer pos data.length).channel.queue = chan.queue ∧
      (wtsReadDrdynvcData chan buffer pos data.length).channel.channelId = chan.channelId ∧
      (wtsReadDrdynvcData chan buffer pos data.length).channel.dvcOpenState = chan.dvcOpenState := by
  obtain ⟨position, begun, inside, room⟩ := coll.fits (by omega) (le_of_lt more)
  have part : ¬(chan.receiveData.write data room).position ≥ chan.dvcTotalLength := by
    have := coll.begun
    change ¬chan.receiveData.position + data.length ≥ chan.dvcTotalLength
    omega
  unfold wtsReadDrdynvcData
  simp only [if_pos begun, if_neg inside, placed, dif_pos room, if_neg part]
  refine ⟨trivial, ⟨coll.begun, ?_, ?_⟩, trivial, trivial, trivial⟩
  · rw [ReceiveData.write_pdu, coll.arrived]
  rw [ReceiveData.write_length]
  exact coll.room

theorem readData_complete (some : 0 < tot)
    (placed : bytesAt buffer pos data.length = data) (last : collected.length + data.length = tot) :
    QueuesMessage chan (wtsReadDrdynvcData chan buffer pos data.length) (collected ++ data) := by
  obtain ⟨position, begun, inside, room⟩ := coll.fits some (le_of_eq last)
  have full : (chan.receiveData.write data room).position ≥ chan.dvcTotalLength := by
    have := coll.begun
    change chan.receiveData.position + data.length ≥ chan.dvcTotalLength
    omega
  have message :
      (chan.receiveData.write data room).buffer.take chan.dvcTotalLength = collected ++ data := by
    have end_ : chan.dvcTotalLength = (chan.receiveData.write data room).position := by
      have := coll.begun
      change chan.dvcTotalLength = chan.receiveData.position + data.length
      omega
    rw [end_]
    have := ReceiveData.write_pdu chan.receiveData data room
    rw [coll.arrived] at this
    exact this
  unfold wtsReadDrdynvcData wtsQueueReceiveData
  simp only [if_pos begun, if_neg inside, placed, dif_pos room, if_pos full, message]
  constructor
  · intro lt
    simp only [if_pos lt]
    exact ⟨trivial, trivial, trivial, trivial, trivial⟩
  intro big
  simp only [if_neg (not_le.mpr big)]

end

end Collecting

/-! ## Messages for the server -/

def serverFeed (server : Option DrdynvcServer) (pdus : List (List UInt8)) : Option DrdynvcServer :=
  pdus.foldl (fun server pdu => (serverStep server ⟨true, true, pdu⟩).1) server

theorem serverFeed_none (pdus : List (List UInt8)) : serverFeed none pdus = none := by
  induction pdus with
  | nil => rfl
  | cons _ pdus ih => exact ih

structure Arrives (server : Option DrdynvcServer) (channelId : Nat) (queue : List ChannelMessage) :
    Prop where
  queued : channelId ≤ UINT16_MAX → ∃ running dvc, server = some running ∧
    ServerOpen running channelId dvc ∧
    dvc.dvcTotalLength = 0 ∧ dvc.queue = queue
  aborted : UINT16_MAX < channelId → server = none

section Server
variable {srv : DrdynvcServer} {chanId : Nat} {dvc : PeerChannel}

theorem serverStep_dataPdu (isOpen : ServerOpen srv chanId dvc) (fits : chanId < 2 ^ 32)
    {data : List UInt8}
    (short : data.length ≤ 1600) : ∃ buffer pos recvData, bytesAt buffer pos data.length = data ∧
      (serverStep (some srv) ⟨true, true, dataPdu chanId data⟩).1 =
        if (wtsReadDrdynvcData dvc buffer pos data.length).result.isOk then
          some (srv.withChannel chanId (wtsReadDrdynvcData dvc buffer pos data.length).channel recvData)
        else none := by
  obtain ⟨code, wid, written, known, -, lt, narrow⟩ := writeVariableUint_cases chanId
  obtain ⟨cmd, cbChId⟩ := dataCommand lt
  rw [dataPdu, written]
  obtain ⟨buffer, _, recvData, placed, step⟩ := @serverStep_channel srv chanId dvc isOpen
    (UInt8.ofNat ((3 <<< 4) ||| code)) wid data (by rw [cbChId, known]) (narrow fits)
    (by rw [cmd]; exact ⟨by decide, by decide, by decide⟩) (by omega)
  refine ⟨buffer, 1 + wid, recvData, ?_, ?_⟩
  · rw [← cons_append] at placed
    apply bytesAt_append placed
    rw [length_cons, leBytes_length]
    omega
  rw [cmd, wtsReadDrdynvcChannel, if_neg isOpen.not_closed] at step
  exact step

theorem Arrives.of_queuesMessage (isOpen : ServerOpen srv chanId dvc) {read : ChannelRead}
    {message : List UInt8} (queues : QueuesMessage dvc read message) (recvData : ReceiveData) :
    Arrives (if read.result.isOk then some (srv.withChannel chanId read.channel recvData) else none)
      chanId (dvc.queue ++ [.data message]) where
  queued small := by
    obtain ⟨ok, idle, q, id, st⟩ := queues.queued (isOpen.channelId.symm ▸ small)
    rw [ok]
    exact ⟨_, read.channel, rfl, isOpen.withChannel id st recvData, idle, q⟩
  aborted large := by
    rw [queues.aborted (isOpen.channelId.symm ▸ large)]
    rfl

theorem serverFeed_chunks {collected : List UInt8} {chunks : List (List UInt8)} {total : Nat}
    (fits : chanId < 2 ^ 32) (isOpen : ServerOpen srv chanId dvc)
    (collecting : DvcCollecting dvc total collected)
    (some_ : chunks ≠ []) (sizes : ∀ chunk ∈ chunks, 0 < chunk.length ∧ chunk.length ≤ 1600)
    (len : collected.length + chunks.flatten.length = total) :
    Arrives (serverFeed (some srv) (chunks.map (dataPdu chanId))) chanId
      (dvc.queue ++ [.data (collected ++ chunks.flatten)]) := by
  induction chunks generalizing srv dvc collected with
  | nil => exact absurd rfl some_
  | cons chunk chunks ih =>
    obtain ⟨_, short⟩ := sizes chunk mem_cons_self
    obtain ⟨_, _, recvData, placed, step⟩ := serverStep_dataPdu isOpen fits short
    rw [flatten_cons, length_append] at len
    rw [map_cons, serverFeed, foldl_cons, step]
    cases chunks with
    | nil =>
      -- the last of them
      have queues := readData_complete collecting (by omega) placed len
      rw [flatten_cons, flatten_nil, append_nil]
      exact Arrives.of_queuesMessage isOpen queues recvData
    | cons next chunks =>
      have later := (sizes next (mem_cons_of_mem _ mem_cons_self)).1
      rw [flatten_cons, length_append] at len
      obtain ⟨ok, collecting, q, id, st⟩ := readData_collecting collecting placed (by omega)
      rw [ok, ← q, flatten_cons, ← append_assoc]
      apply ih (isOpen.withChannel id st recvData) collecting (cons_ne_nil _ _)
      · exact fun chunk mem => sizes chunk (mem_cons_of_mem _ mem)
      rw [length_append, flatten_cons, length_append]
      omega

/-- The data units of a message reach the queue as one message. -/
theorem serverFeed_message {message : List UInt8} {pdus : List (List UInt8)} (fits : chanId < 2 ^ 32)
    (isOpen : ServerOpen srv chanId dvc) (idle : dvc.dvcTotalLength = 0)
    (sized : message.length < 2 ^ 32) (written : MessagePdus chanId message pdus) :
    Arrives (serverFeed (some srv) pdus) chanId (dvc.queue ++ [.data message]) := by
  cases written with
  | whole short =>
    obtain ⟨buffer, _, recvData, placed, step⟩ := serverStep_dataPdu isOpen fits short
    rw [serverFeed, foldl_cons, foldl_nil, step]
    exact Arrives.of_queuesMessage isOpen (readData_whole idle placed) recvData
  | @parts fst chunks split short some_ sizes =>
    have total : fst.length + chunks.flatten.length = message.length := by rw [← split, length_append]
    obtain ⟨code, wid, id, known, -, lt, narrow⟩ := writeVariableUint_cases chanId
    obtain ⟨lenCode, lenWidth, len, knownLen, -, ltLen, narLen⟩ :=
      writeVariableUint_cases message.length
    obtain ⟨cmd, cbChId, spent⟩ := dataFirstCommand lt ltLen
    have lenBs := variableWidth_pos knownLen
    rw [serverFeed, foldl_cons, dataFirstPdu, id, len]
    obtain ⟨buffer, stale, recvData, placed, step⟩ := @serverStep_channel srv chanId dvc isOpen
      (UInt8.ofNat ((2 <<< 4) ||| (lenCode <<< 2) ||| code)) wid (leBytes lenWidth message.length ++ fst)
      (by rw [cbChId, known]) (narrow fits) (by rw [cmd]; exact ⟨by decide, by decide, by decide⟩)
      (by rw [length_append, leBytes_length]; omega)
    rw [cmd, spent, wtsReadDrdynvcChannel, if_neg isOpen.not_closed, length_append,
      leBytes_length] at step
    rw [append_assoc, ← cons_append] at placed
    obtain ⟨ok, collecting, q, sameId, st⟩ := @readDataFirst_collecting dvc buffer fst stale _
      (1 + wid) lenCode lenWidth message.length knownLen (narLen sized) placed
      (by rw [length_cons, leBytes_length]; omega) (by omega)
    rw [step, ok, ← split, ← q]
    exact serverFeed_chunks fits (isOpen.withChannel sameId st recvData) collecting some_ sizes total

theorem serverFeed_messages {msgs : List (List UInt8)} (fits : chanId < 2 ^ 32)
    (isOpen : ServerOpen srv chanId dvc) (idle : dvc.dvcTotalLength = 0)
    (sized : ∀ message ∈ msgs, message ≠ [] ∧ message.length < 2 ^ 32) (some_ : msgs ≠ []) :
    Arrives (serverFeed (some srv) (msgs.flatMap (drdynvcWriteData chanId))) chanId
    (dvc.queue ++ msgs.map .data) := by
  induction msgs generalizing srv dvc with
  | nil => exact absurd rfl some_
  | cons message msgs ih =>
    obtain ⟨ne, lt⟩ := sized message mem_cons_self
    have fst := serverFeed_message fits isOpen idle lt (drdynvcWriteData_pdus chanId ne)
    rw [flatMap_cons, serverFeed, foldl_append, ← serverFeed, ← serverFeed, map_cons]
    cases msgs with
    | nil => exact fst
    | cons _ msgs =>
      by_cases low : chanId ≤ UINT16_MAX
      · obtain ⟨_, _, fed, isOpen', idle', q⟩ := fst.queued low
        have rest :=
          ih isOpen' idle' (fun message mem => sized message (mem_cons_of_mem _ mem)) (cons_ne_nil _ _)
        rw [q, append_assoc] at rest
        rw [fed]
        exact rest
      rw [fst.aborted (not_le.mp low), serverFeed_none]
      exact ⟨fun no => absurd no low, fun _ => rfl⟩

end Server

/-! ## Messages for the client -/

def clientFeed (dvcman : Dvcman) (pdus : List (List UInt8)) : Option Dvcman :=
    pdus.foldlM drdynvcOrderRecv dvcman

structure ClientOpen (dvcman : Dvcman) (channelId : Nat) (channel : DvcmanChannel) : Prop where
  found : dvcman.channelsById channelId = some channel
  running : channel.running = true
  accepts : ∀ message, dvcman.onReceive message = true

def Dvcman.withChannel (dvcman : Dvcman) (channelId : Nat) (channel : DvcmanChannel) : Dvcman :=
  { dvcman with channelsById := Function.update dvcman.channelsById channelId channel }

theorem ClientOpen.withChannel {dvcman : Dvcman} {channel channel' : DvcmanChannel}
    (isOpen : ClientOpen dvcman channelId channel) (running : channel'.running = true) :
    ClientOpen (dvcman.withChannel channelId channel') channelId channel' where
  found := Function.update_self _ _ _
  running := running
  accepts := isOpen.accepts

section Client
variable {dvcman : Dvcman} {channelId : Nat} {channel : DvcmanChannel}

theorem orderRecv_dataPdu (isOpen : ClientOpen dvcman channelId channel) (fits : channelId < 2 ^ 32)
    (data : List UInt8) :
    drdynvcOrderRecv dvcman (dataPdu channelId data) = some (dvcman.withChannel channelId
      (closeUnless (dvcmanReceiveChannelData dvcman.onReceive channel data))) := by
  obtain ⟨code, wid, written, -, known, lt, narrow⟩ := writeVariableUint_cases channelId
  obtain ⟨cmd, cbChId⟩ := dataCommand lt
  have stays : ¬¬channel.running = true := fun stopped => stopped isOpen.running
  have room : ¬(leBytes wid channelId ++ data).length < drdynvcCblenToBytes code := by
    rw [known, length_append, leBytes_length]
    omega
  rw [dataPdu, written, drdynvcOrderRecv]
  simp only [cmd, cbChId]
  rw [drdynvcProcessData, if_neg room, readVariableUint_written known (narrow fits)]
  simp only [isOpen.found, if_neg stays]
  rfl

theorem orderRecv_dataFirstPdu (isOpen : ClientOpen dvcman channelId channel) (fits : channelId < 2 ^ 32)
    {total : Nat} (sized : total < 2 ^ 32) (data : List UInt8) :
    drdynvcOrderRecv dvcman (dataFirstPdu channelId total data) = some (dvcman.withChannel channelId
      (closeUnless (dvcmanReceiveChannelData dvcman.onReceive
        (dvcmanReceiveChannelDataFirst channel total) data))) := by
  obtain ⟨code, wid, written, -, known, lt, narrow⟩ := writeVariableUint_cases channelId
  obtain ⟨lengthCode, lenWidth, len, -, knownLen, ltLen, narLen⟩ := writeVariableUint_cases total
  obtain ⟨cmd, cbChId, spent⟩ := dataFirstCommand lt ltLen
  have stays : ¬¬channel.running = true := fun stopped => stopped isOpen.running
  have room : ¬(leBytes wid channelId ++ (leBytes lenWidth total ++ data)).length <
      drdynvcCblenToBytes code + drdynvcCblenToBytes lengthCode := by
    rw [known, knownLen, length_append, length_append, leBytes_length, leBytes_length]
    omega
  rw [dataFirstPdu, written, len, drdynvcOrderRecv]
  simp only [cmd, cbChId, spent]
  rw [drdynvcProcessDataFirst, if_neg room, readVariableUint_written known (narrow fits)]
  simp only
  rw [readVariableUint_written knownLen (narLen sized)]
  simp only [isOpen.found, if_neg stays]
  rfl

variable {onRecv : List UInt8 → Bool} {collected data : List UInt8}

theorem receiveData_whole (idle : channel.dvcData = none) (message : List UInt8) :
    dvcmanReceiveChannelData onRecv channel message =
      ({ channel with received := channel.received ++ [message] }, onRecv message) := by
  cases channel with
  | mk _ dvcData _ received =>
    cases idle
    rfl

theorem receiveData_collecting (begun : channel.dvcData = some collected)
    (more : collected.length + data.length < channel.dvcDataLength) :
    dvcmanReceiveChannelData onRecv channel data =
    ({ channel with dvcData := some (collected ++ data) }, true) := by
  have part : ¬(collected ++ data).length ≥ channel.dvcDataLength := by
    rw [length_append]
    omega
  rw [dvcmanReceiveChannelData, begun]
  simp only
  rw [if_neg (by omega), if_neg part]

theorem receiveData_complete (begun : channel.dvcData = some collected)
    (last : collected.length + data.length = channel.dvcDataLength) :
    dvcmanReceiveChannelData onRecv channel data =
      ({ channel with dvcData := none, received := channel.received ++ [collected ++ data] },
        onRecv (collected ++ data)) := by
  have full : (collected ++ data).length ≥ channel.dvcDataLength := by
    rw [length_append]
    omega
  rw [dvcmanReceiveChannelData, begun]
  simp only
  rw [if_neg (by omega), if_pos full]
  rfl

def Received (dvcman : Option Dvcman) (channelId : Nat) (received : List (List UInt8)) : Prop :=
  ∃ running channel, dvcman = some running ∧ ClientOpen running channelId channel ∧
    channel.dvcData = none ∧
    channel.received = received

theorem clientFeed_cons (dvcman : Dvcman) (pdu : List UInt8) (pdus : List (List UInt8)) :
    clientFeed dvcman (pdu :: pdus) = (drdynvcOrderRecv dvcman pdu).bind fun dvcman =>
    clientFeed dvcman pdus :=
  foldlM_cons

theorem clientFeed_chunks {chunks : List (List UInt8)} (fits : channelId < 2 ^ 32)
    (isOpen : ClientOpen dvcman channelId channel) (begun : channel.dvcData = some collected)
    (some_ : chunks ≠ []) (sizes : ∀ chunk ∈ chunks, 0 < chunk.length ∧ chunk.length ≤ 1600)
    (len : collected.length + chunks.flatten.length = channel.dvcDataLength) :
    Received (clientFeed dvcman (chunks.map (dataPdu channelId))) channelId
    (channel.received ++ [collected ++ chunks.flatten]) := by
  induction chunks generalizing dvcman channel collected with
  | nil => exact absurd rfl some_
  | cons chunk chunks ih =>
    rw [flatten_cons, length_append] at len
    rw [map_cons, clientFeed_cons, orderRecv_dataPdu isOpen fits, Option.bind_some]
    cases chunks with
    | nil =>
      rw [receiveData_complete begun len, isOpen.accepts, flatten_cons, flatten_nil, append_nil]
      exact ⟨_, _, rfl, isOpen.withChannel isOpen.running, rfl, rfl⟩
    | cons next chunks =>
      have later := (sizes next (mem_cons_of_mem _ mem_cons_self)).1
      rw [flatten_cons, length_append] at len
      rw [receiveData_collecting begun (by omega), flatten_cons, ← append_assoc]
      refine @ih _ { channel with dvcData := some (collected ++ chunk) } _
        (isOpen.withChannel isOpen.running) rfl (cons_ne_nil _ _)
        (fun chunk mem => sizes chunk (mem_cons_of_mem _ mem)) ?_
      rw [length_append, flatten_cons, length_append]
      change _ = channel.dvcDataLength
      omega

/-- The data units of a message reach the plugin as one message. -/
theorem clientFeed_message {pdus : List (List UInt8)} (fits : channelId < 2 ^ 32)
    (isOpen : ClientOpen dvcman channelId channel) (idle : channel.dvcData = none)
    (sized : message.length < 2 ^ 32) (written : MessagePdus channelId message pdus) :
    Received (clientFeed dvcman pdus) channelId (channel.received ++ [message]) := by
  cases written with
  | whole short =>
    rw [clientFeed_cons, orderRecv_dataPdu isOpen fits, receiveData_whole idle, isOpen.accepts]
    exact ⟨_, _, rfl, isOpen.withChannel isOpen.running, idle, rfl⟩
  | @parts fst chunks split short some_ sizes =>
    have total : fst.length + chunks.flatten.length = message.length := by rw [← split, length_append]
    obtain ⟨chunk, mem⟩ := exists_mem_of_ne_nil chunks some_
    have rest : 0 < chunks.flatten.length := by
      have positive := (sizes chunk mem).1
      have inside := (sublist_flatten_of_mem mem).length_le
      omega
    rw [clientFeed_cons, orderRecv_dataFirstPdu isOpen fits sized, Option.bind_some]
    have begun : dvcmanReceiveChannelData dvcman.onReceive
        (dvcmanReceiveChannelDataFirst channel message.length) fst =
        ({ channel with dvcData := some fst, dvcDataLength := message.length }, true) := by
      apply @receiveData_collecting (dvcmanReceiveChannelDataFirst channel message.length) _ [] fst rfl
      change [].length + fst.length < message.length
      rw [length_nil]
      omega
    rw [begun, ← split]
    refine @clientFeed_chunks _ _
      { channel with dvcData := some fst, dvcDataLength := (fst ++ chunks.flatten).length }
      fst chunks fits (isOpen.withChannel isOpen.running) rfl some_ sizes ?_
    exact length_append.symm

theorem clientFeed_messages {msgs : List (List UInt8)} (fits : channelId < 2 ^ 32)
    (isOpen : ClientOpen dvcman channelId channel) (idle : channel.dvcData = none)
    (sized : ∀ message ∈ msgs, message ≠ [] ∧ message.length < 2 ^ 32) :
    Received (clientFeed dvcman (msgs.flatMap (wtsVirtualChannelWrite channelId))) channelId
    (channel.received ++ msgs) := by
  induction msgs generalizing dvcman channel with
  | nil => exact ⟨dvcman, channel, rfl, isOpen, idle, (append_nil _).symm⟩
  | cons message msgs ih =>
    obtain ⟨ne, lt⟩ := sized message mem_cons_self
    have written := drdynvcWriteData_pdus channelId ne
    rw [← channelWrite_eq] at written
    obtain ⟨running, _, fed, isOpen', idle', recv⟩ := clientFeed_message fits isOpen idle lt written
    have rest := ih isOpen' idle' fun message mem => sized message (mem_cons_of_mem _ mem)
    rw [recv, append_assoc, singleton_append] at rest
    have fed :
      foldlM drdynvcOrderRecv dvcman (wtsVirtualChannelWrite channelId message) = some running := fed
    rw [flatMap_cons, clientFeed, foldlM_append, fed]
    exact rest

end Client

/-! ## Both directions -/

def Queued (server : Option DrdynvcServer) (channelId : Nat) (queue : List ChannelMessage) : Prop :=
  ∃ running dvc, server = some running ∧ running.vcm.dynamicVirtualChannels channelId = some dvc ∧
    dvc.queue = queue

/-- Messages go both ways exactly if the id of the channel fits sixteen bits, or the client sends
none. -/
theorem dvc_messages_delivered_iff {server : DrdynvcServer} {dvcman : Dvcman}
    {channelId : Nat} {dvc : PeerChannel}
    {channel : DvcmanChannel} (fits : channelId < 2 ^ 32) (serverOpen : ServerOpen server channelId dvc)
    (serverIdle : dvc.dvcTotalLength = 0) (clientOpen : ClientOpen dvcman channelId channel)
    (clientIdle : channel.dvcData = none) {toServer toClient : List (List UInt8)}
    (serverSized : ∀ message ∈ toServer, message ≠ [] ∧ message.length < 2 ^ 32)
    (clientSized : ∀ message ∈ toClient, message ≠ [] ∧ message.length < 2 ^ 32) :
    (Queued (serverFeed (some server) (toServer.flatMap (drdynvcWriteData channelId))) channelId
        (dvc.queue ++ toServer.map .data) ∧
      Received (clientFeed dvcman (toClient.flatMap (wtsVirtualChannelWrite channelId))) channelId
        (channel.received ++ toClient)) ↔ channelId ≤ UINT16_MAX ∨ toServer = [] := by
  rw [and_iff_left (clientFeed_messages fits clientOpen clientIdle clientSized)]
  by_cases none : toServer = []
  · refine iff_of_true ?_ (.inr none)
    rw [none, List.map_nil, List.append_nil]
    exact ⟨server, dvc, rfl, serverOpen.found, rfl⟩
  have arrives := serverFeed_messages fits serverOpen serverIdle serverSized none
  constructor
  · rintro ⟨run, -, fed, -⟩
    refine .inl (not_lt.mp fun big => ?_)
    rw [arrives.aborted big] at fed
    cases fed
  rintro (lt | no)
  · obtain ⟨run, dvc', fed, isOpen, -, q⟩ := arrives.queued lt
    exact ⟨run, dvc', fed, isOpen.found, q⟩
  · exact absurd no none

def sevenClient : Dvcman where
  channelsById := fun channelId => if channelId = 7 then some ⟨true, none, 0, []⟩ else none
  onReceive := fun _ => true

/-- Channel seven delivers two messages one way and one message the other way. -/
theorem dvc_messages_delivered_seven :
    Queued (serverFeed (some sevenServer)
      (([[1, 2], [3]] : List (List UInt8)).flatMap (drdynvcWriteData 7))) 7
      [.data [1, 2], .data [3]] ∧ Received (clientFeed sevenClient
      (([[4]] : List (List UInt8)).flatMap (wtsVirtualChannelWrite 7))) 7 [[4]] := by
  apply (@dvc_messages_delivered_iff sevenServer sevenClient 7
    ⟨7, .succeeded, 0, newReceiveData ⟨1600, by decide⟩, []⟩ ⟨true, none, 0, []⟩
      (by decide) ⟨rfl, rfl, rfl, rfl⟩ rfl
    ⟨rfl, rfl, fun _ => rfl⟩ rfl [[1, 2], [3]] [[4]] (by decide) (by decide)).mpr
  exact .inl (by decide)

def wideServer : DrdynvcServer where
  vcm :=
    { ready := true
      dynamicVirtualChannels := fun channelId =>
        if channelId = 65536 then
          some ⟨65536, .succeeded, 0, newReceiveData ⟨1600, Nat.succ_pos _⟩, []⟩
        else none
      dvcCreationStatus := fun _ _ => true }
  receiveData := newReceiveData ⟨1600, Nat.succ_pos _⟩

/-- A message for a channel whose id takes seventeen bits ends the server. -/
theorem dvc_message_not_delivered :
    serverFeed (some wideServer) (drdynvcWriteData 65536 [1]) = none := by
  have arrives :=
    @serverFeed_message wideServer 65536 _ [1] _ (by decide) ⟨rfl, rfl, rfl, rfl⟩ rfl (by decide)
    (drdynvcWriteData_pdus 65536 (List.cons_ne_nil 1 []))
  exact arrives.aborted (by decide)

end KvmServer.Core
