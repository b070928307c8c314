import KvmServer.Lib.Source
import KvmServer.Winpr.Stream

/-! # Reading from a WebSocket (`core/gateway/websocket.c`)

The reader keeps its place in a frame from one call to the next.  It hands out the payloads of
binary frames and answers or drops the others.  The transport is a source of bytes; what is written
to it, the answers, is left out. -/

namespace KvmServer.Core
open Lib Winpr

def INT32_MAX : Nat := 2 ^ 31 - 1

def WEBSOCKET_MASK_BIT : UInt8 := 0x80
def WEBSOCKET_FIN_BIT : UInt8 := 0x80

def WebsocketContinuationOpcode : UInt8 := 0x0
def WebsocketBinaryOpcode : UInt8 := 0x2
def WebsocketCloseOpcode : UInt8 := 0x8
def WebsocketPingOpcode : UInt8 := 0x9
def WebsocketPongOpcode : UInt8 := 0xa

inductive WebsocketState where
  | opcodeAndFin
  | lengthAndMasking
  | shortLength
  | longLength
  | maskingKey
  | payload
deriving DecidableEq

/-- `responsePosition` and `responseCapacity` are those of `responseStreamBuffer`. -/
structure WebsocketContext where
  payloadLength : Nat
  (masking closeSent : Bool)
  (opcode fragmentOriginalOpcode : UInt8)
  lengthAndMaskPosition : Nat
  state : WebsocketState
  (responsePosition responseCapacity : Nat)

def websocketContextNew : WebsocketContext where
  payloadLength := 0
  masking := false
  closeSent := false
  opcode := 0
  fragmentOriginalOpcode := 0
  lengthAndMaskPosition := 0
  state := .opcodeAndFin
  responsePosition := 0
  responseCapacity := 1024

/-! ## Payloads -/

structure WebsocketStatus where
  status : Int
  data : List UInt8
  context : WebsocketContext
  bio : Source

def websocketReadData (bio : Source) (size : Nat) (context : WebsocketContext) : WebsocketStatus :=
  if context.payloadLength = 0 then ⟨0, [], { context with state := .opcodeAndFin }, bio⟩
  else
    let rlen := if context.payloadLength < size then context.payloadLength else size
    if rlen > INT32_MAX then ⟨-1, [], context, bio⟩
    else
      let read := bio.read rlen
      if read.status ≤ 0 ∨
        read.status > context.payloadLength then ⟨read.status, read.data, context, read.source⟩
      else
        let payloadLength := context.payloadLength - read.status.toNat
        ⟨read.status, read.data,
          { context with
            payloadLength := payloadLength
            state := if payloadLength = 0 then .opcodeAndFin else context.state },
          read.source⟩

/-- `do new_capacity *= 2; while (new_capacity < size)` in `size_t`: after 64 rounds the capacity is
0 and stays 0. -/
def growCapacity (size : Nat) : Nat → Nat → Except Stop Nat
  | 0, _ => .error .loops
  | rounds + 1, capacity =>
    let capacity := capacity * 2 % 2 ^ 64
    if capacity < size then growCapacity size rounds capacity else .ok capacity

/-- `Stream_EnsureRemainingCapacity` in `size_t`, when memory is available: the capacity afterwards. -/
def ensureResponseCapacity (position capacity size : Nat) : Except Stop Nat :=
  if (position + size) % 2 ^ 64 > capacity then
    let size := (capacity + size) % 2 ^ 64
    if capacity < size then growCapacity size 64 capacity else .ok capacity
  else .ok capacity

def websocketReadWstream (bio : Source) (context : WebsocketContext) : Except Stop WebsocketStatus :=
  if context.payloadLength = 0 then .ok ⟨0, [], { context with state := .opcodeAndFin }, bio⟩
  else do
    let capacity ← ensureResponseCapacity context.responsePosition context.responseCapacity
      context.payloadLength
    let remaining := capacity - context.responsePosition
    -- only a ping or a close fills the stream, and then its read of no bytes is made again and again
    if remaining = 0 then .error .loops
    else
      let read := websocketReadData bio remaining { context with responseCapacity := capacity }
      if read.status < 0 then .ok read
      else
        .ok { read with context :=
          { read.context with responsePosition := read.context.responsePosition + read.status.toNat } }

variable (context : WebsocketContext)

/-- The status of writing is not looked at; `sPacket` is there unless a ping was empty. -/
def websocketContextWriteWstream (sPacket : Bool) (opcode : UInt8) : Except Stop WebsocketContext :=
  if context.closeSent then .ok context
  else
    let context := { context with closeSent := context.closeSent || opcode == WebsocketCloseOpcode }
    if sPacket then .ok context else .error .assertion

def websocketReplyClose (sPacket : Bool) : Except Stop WebsocketContext :=
  websocketContextWriteWstream context sPacket WebsocketCloseOpcode

def websocketReplyPong : Except Stop WebsocketContext :=
  if context.responsePosition ≠ 0 then websocketContextWriteWstream context true WebsocketPongOpcode
  else websocketReplyClose context false

def effectiveOpcode : UInt8 :=
  if context.opcode &&& 0xf = WebsocketContinuationOpcode then context.fragmentOriginalOpcode &&& 0xf
  else context.opcode &&& 0xf

def websocketReply : Except Stop WebsocketContext :=
  if effectiveOpcode context = WebsocketPingOpcode then
    if context.payloadLength = 0 then do
      let context ← websocketReplyPong context
      .ok { context with responsePosition := 0 }
    else .ok context
  else if effectiveOpcode context = WebsocketCloseOpcode then
    if context.payloadLength = 0 then do
      let context ← websocketReplyClose context true
      .ok { context with closeSent := true, responsePosition := 0 }
    else .ok context
  -- pong, and what is not implemented
  else .ok { context with responsePosition := 0 }

def websocketHandlePayload (bio : Source) (size : Nat) (context : WebsocketContext) :
    Except Stop WebsocketStatus :=
  if effectiveOpcode context = WebsocketBinaryOpcode then .ok (websocketReadData bio size context)
  else do
    let read ← websocketReadWstream bio context
    if read.status < 0 then .ok { read with data := [] }
    else do
      let context ← websocketReply read.context
      .ok ⟨0, [], context, read.bio⟩

/-! ## The loop -/

inductive WebsocketTurn where
  | again (context : WebsocketContext) (bio : Source) (data : List UInt8)
  /-- The transport has nothing: what was stored before is returned, or else the status. -/
  | failed (context : WebsocketContext) (bio : Source) (status : Int)
  | filled (context : WebsocketContext) (bio : Source) (data : List UInt8)
  | refused (context : WebsocketContext) (bio : Source)
  | aborted (stop : Stop)

def websocketHeaderTurn (bio : Source) (next : UInt8 → WebsocketContext) : WebsocketTurn :=
  let read := bio.read 1
  if read.status ≤ 0 then .failed context read.source read.status
  else .again (next (read.data.headD 0)) read.source []

def websocketOpcodeAndFin (byte : UInt8) : WebsocketContext :=
  { context with
    opcode := byte
    fragmentOriginalOpcode :=
      if byte &&& 0xf ≠ WebsocketContinuationOpcode ∧ byte &&& 0xf < 0x08 then byte
      else context.fragmentOriginalOpcode
    state := .lengthAndMasking }

def afterLength (masking : Bool) : WebsocketState := if masking then .maskingKey else .payload

def websocketLengthAndMasking (byte : UInt8) : WebsocketContext :=
  let masking : Bool := byte &&& WEBSOCKET_MASK_BIT = WEBSOCKET_MASK_BIT
  let len := (byte &&& 0x7f).toNat
  { context with
    masking := masking
    lengthAndMaskPosition := 0
    payloadLength := if len < 126 then len else 0
    state := if len < 126 then afterLength masking else if len = 126 then .shortLength else .longLength }

def websocketLengthByte (byte : UInt8) : WebsocketContext :=
  { context with
    payloadLength := context.payloadLength <<< 8 % 2 ^ 64 ||| byte.toNat
    lengthAndMaskPosition := context.lengthAndMaskPosition + 1 }

def websocketLengthTurn (bio : Source) (lenLength : Nat) : WebsocketTurn :=
  if context.lengthAndMaskPosition <
    lenLength then websocketHeaderTurn context bio (websocketLengthByte context)
  else .again { context with state := afterLength context.masking } bio []

def websocketPayloadTurn (bio : Source) (size : Nat) : WebsocketTurn :=
  match websocketHandlePayload bio size context with
  | .error stop => .aborted stop
  | .ok read =>
    if read.status < 0 then .failed read.context read.bio read.status
    else if read.status ≥ size then .filled read.context read.bio read.data
    else .again read.context read.bio read.data

def websocketTurn (bio : Source) (size : Nat) : WebsocketTurn :=
  match context.state with
  | .opcodeAndFin => websocketHeaderTurn context bio (websocketOpcodeAndFin context)
  | .lengthAndMasking => websocketHeaderTurn context bio (websocketLengthAndMasking context)
  | .shortLength => websocketLengthTurn context bio 2
  | .longLength => websocketLengthTurn context bio 8
  | .maskingKey => .refused context bio
  | .payload => websocketPayloadTurn context bio size

/-- The turns that read nothing from the transport end after two. -/
def WebsocketState.rank : WebsocketState → Nat
  | .shortLength => 2
  | .longLength => 2
  | .payload => 1
  | _ => 0

def websocketMeasure (bio : Source) : Nat :=
  3 * bio.events.length + context.state.rank

theorem WebsocketState.rank_le (state : WebsocketState) : state.rank ≤ 2 := by
  cases state <;> decide

variable {context context' : WebsocketContext} {bio bio' : Source} {data : List UInt8} {size : Nat}

theorem contextWriteWstream_state {sPacket : Bool} {opcode : UInt8}
    (written : websocketContextWriteWstream context sPacket opcode = .ok context') :
    context'.state = context.state := by
  unfold websocketContextWriteWstream at written
  split at written
  · cases written
    rfl
  · cases sPacket with
    | false => cases written
    | true =>
      cases written
      rfl

theorem replyPong_state (reply : websocketReplyPong context = .ok context') :
    context'.state = context.state := by
  unfold websocketReplyPong at reply
  split at reply
  iterate 2 exact contextWriteWstream_state reply

theorem websocketReply_state (reply : websocketReply context = .ok context') :
    context'.state = context.state := by
  unfold websocketReply at reply
  split at reply
  · split at reply
    · obtain ⟨_, sent, same⟩ := bind_eq_ok.mp reply
      cases same
      exact (replyPong_state sent :)
    · cases reply
      rfl
  split at reply
  · split at reply
    · obtain ⟨_, sent, same⟩ := bind_eq_ok.mp reply
      cases same
      exact (contextWriteWstream_state sent :)
    · cases reply
      rfl
  · cases reply
    rfl

theorem headerTurn_measure {next : UInt8 → WebsocketContext}
    (turn : websocketHeaderTurn context bio next = .again context' bio' data) :
    websocketMeasure context' bio' < websocketMeasure context bio := by
  simp only [websocketHeaderTurn] at turn
  split at turn
  · cases turn
  have used := Source.read_events_lt (by decide : 0 < 1) (by omega : 0 ≤ (bio.read 1).status)
  cases turn
  have lt := (next ((bio.read 1).data.headD 0)).state.rank_le
  unfold websocketMeasure
  omega

section
variable (st : context.state = .payload)
include st

theorem readData_measure (some : 0 < size) (pass : 0 ≤ (websocketReadData bio size context).status) :
    websocketMeasure (websocketReadData bio size context).context
    (websocketReadData bio size context).bio < websocketMeasure context bio := by
  unfold websocketReadData at pass ⊢
  unfold websocketMeasure
  rw [st]
  by_cases fin : context.payloadLength = 0
  · rw [if_pos fin]
    exact Nat.lt_succ_self _
  simp only [if_neg fin] at pass ⊢
  generalize len : (if context.payloadLength < size then context.payloadLength else size) = rlen at *
  have pos : 0 < rlen := by
    rw [← len]
    split <;> omega
  by_cases big : rlen > INT32_MAX
  · simp [if_pos big] at pass
  simp only [if_neg big] at pass ⊢
  split at pass
  · next stays =>
    have used := Source.read_events_lt pos pass
    rw [if_pos stays]
    simp only [st, WebsocketState.rank]
    omega
  · next moves =>
    have used := Source.read_events_lt pos (by omega : 0 ≤ (bio.read rlen).status)
    rw [if_neg moves]
    simp only
    have lt := WebsocketState.rank_le
      (if context.payloadLength - (bio.read rlen).status.toNat = 0 then .opcodeAndFin else .payload)
    omega

theorem readWstream_measure {read : WebsocketStatus} (res : websocketReadWstream bio context = .ok read)
    (pass : 0 ≤ read.status) :
    websocketMeasure read.context read.bio < websocketMeasure context bio := by
  unfold websocketReadWstream at res
  by_cases fin : context.payloadLength = 0
  · rw [if_pos fin] at res
    cases res
    unfold websocketMeasure
    rw [st]
    exact Nat.lt_succ_self _
  rw [if_neg fin] at res
  obtain ⟨capacity, -, res⟩ := bind_eq_ok.mp res
  dsimp only at res
  split at res
  · cases res
  · next room =>
    have less :=
      @readData_measure { context with responseCapacity := capacity } bio _ st (Nat.pos_of_ne_zero room)
    split at res
    · next neg =>
      cases res
      omega
    · next rd =>
      cases res
      exact less (not_lt.mp rd)

theorem payloadTurn_measure (turn : websocketPayloadTurn context bio size = .again context' bio' data) :
    websocketMeasure context' bio' < websocketMeasure context bio := by
  unfold websocketPayloadTurn at turn
  split at turn
  · cases turn
  · next _ handled =>
    split at turn
    · cases turn
    split at turn
    · cases turn
    · next pass _ =>
      cases turn
      unfold websocketHandlePayload at handled
      split at handled
      · cases handled
        exact readData_measure st (by omega) (by omega)
      obtain ⟨_, res, handled⟩ := bind_eq_ok.mp handled
      split at handled
      · next failed =>
        cases handled
        exact absurd failed pass
      · next =>
        obtain ⟨_, reply, same⟩ := bind_eq_ok.mp handled
        cases same
        have less := readWstream_measure st res (by omega)
        unfold websocketMeasure at less ⊢
        rw [websocketReply_state reply]
        exact less

end

theorem websocketTurn_measure (turn : websocketTurn context bio size = .again context' bio' data) :
    websocketMeasure context' bio' < websocketMeasure context bio := by
  have lengthTurn : ∀ lenLength, context.state.rank = 2 →
      websocketLengthTurn context bio lenLength = .again context' bio' data →
      websocketMeasure context' bio' < websocketMeasure context bio := by
    intro lenLength rank turn
    unfold websocketLengthTurn at turn
    split at turn
    · exact headerTurn_measure turn
    · cases turn
      unfold websocketMeasure
      rw [rank]
      cases context.masking with
      | false => exact Nat.lt_succ_self _
      | true => exact Nat.lt_add_of_pos_right (by decide)
  unfold websocketTurn at turn
  cases state : context.state with
  | opcodeAndFin | lengthAndMasking =>
    rw [state] at turn
    exact headerTurn_measure turn
  | shortLength =>
    rw [state] at turn
    exact lengthTurn 2 (by rw [state]; rfl) turn
  | longLength =>
    rw [state] at turn
    exact lengthTurn 8 (by rw [state]; rfl) turn
  | maskingKey =>
    rw [state] at turn
    cases turn
  | payload =>
    rw [state] at turn
    exact payloadTurn_measure state turn

structure WebsocketRead where
  status : Int
  data : List UInt8
  context : WebsocketContext
  bio : Source

def websocketReturn (data : List UInt8) (context : WebsocketContext) (bio : Source) :
    Except Stop WebsocketRead :=
  if data.length > INT32_MAX then .error .assertion else .ok ⟨data.length, data, context, bio⟩

def websocketLoop (context : WebsocketContext) (bio : Source) (size : Nat) (data : List UInt8) :
    Except Stop WebsocketRead :=
  match turn : websocketTurn context bio size with
  | .again context' bio' more => websocketLoop context' bio' (size - more.length) (data ++ more)
  | .failed context' bio' status =>
    if data.length > 0 then websocketReturn data context' bio' else .ok ⟨status, data, context', bio'⟩
  | .filled context' bio' more => websocketReturn (data ++ more) context' bio'
  | .refused context' bio' => .ok ⟨-1, data, context', bio'⟩
  | .aborted stop => .error stop
termination_by websocketMeasure context bio
decreasing_by exact websocketTurn_measure turn

def websocketContextRead (context : WebsocketContext) (bio : Source) (size : Nat) :
    Except Stop WebsocketRead :=
  websocketLoop context bio size []

/-- The bytes a caller gets from one call after the other, each with a buffer of its own size. -/
def websocketContextReads :
    WebsocketContext → Source → List Nat → Except Stop (List UInt8 × WebsocketContext × Source)
  | context, bio, [] => .ok ([], context, bio)
  | context, bio, size :: sizes => do
    let read ← websocketContextRead context bio size
    let (data, context, bio) ← websocketContextReads read.context read.bio sizes
    .ok (read.data.take read.status.toNat ++ data, context, bio)

end KvmServer.Core
