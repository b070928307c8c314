import KvmServer.Core.WebsocketReading

/-! # The end of the transport's data

Behind its last event every read of the transport returns 0.  The loop of `websocket_context_read`
then ends, unless it waits for more of a payload: there it reads again.  It also does not end where
a frame that is not binary announces so many bytes that the response stream grows without an end.
-/

namespace KvmServer.Core
open Lib Winpr

/-- What holds of a parser between any two turns. -/
structure WebsocketContext.Valid (context : WebsocketContext) : Prop where
  payload : context.payloadLength < 2 ^ 64
  position : context.responsePosition ≤ context.responseCapacity
  capacity : context.responseCapacity < 2 ^ 64
  between : context.state ≠ .payload → context.responsePosition = 0
  dropped :
    effectiveOpcode context ≠ WebsocketPingOpcode → effectiveOpcode context ≠ WebsocketCloseOpcode →
    context.responsePosition = 0

def orEnd (bio : Source) : Source :=
  if bio.events = [] then { bio with events := [.blocked ⟨0, Int.le_refl 0⟩] } else bio

/-- The loop goes on for `n` turns and more; a turn that never returns counts as any number of turns. -/
def websocketTurns : Nat → WebsocketContext → Source → Nat → Bool
  | 0, _, _, _ => true
  | n + 1, context, bio, size =>
    match websocketTurn context (orEnd bio) size with
    | .again context bio' more =>
        websocketTurns n context (if bio.events = [] then bio else bio') (size - more.length)
    | .aborted .loops => true
    | _ => false

/-- The bytes that the next read of a payload asks for. -/
def payloadRequest (context : WebsocketContext) (size : Nat) : Nat :=
  if effectiveOpcode context = WebsocketBinaryOpcode then min context.payloadLength size
  else
    match ensureResponseCapacity context.responsePosition context.responseCapacity
      context.payloadLength with
    | .ok capacity => min context.payloadLength (capacity - context.responsePosition)
    | .error _ => 0

structure PayloadMissing (context : WebsocketContext) (size : Nat) : Prop where
  state : context.state = .payload
  missing : 0 < context.payloadLength
  room : 0 < size
  request : payloadRequest context size ≤ INT32_MAX

/-- A payload is to be collected for which the response stream does not get any room. -/
structure GrowsForever (context : WebsocketContext) : Prop where
  state : context.state = .payload
  missing : 0 < context.payloadLength
  collected : effectiveOpcode context ≠ WebsocketBinaryOpcode
  full : ∀ capacity,
    ensureResponseCapacity context.responsePosition context.responseCapacity context.payloadLength =
    .ok capacity → capacity ≤ context.responsePosition

inductive EndsInPayload : WebsocketContext → Source → Nat → Prop
  | here {context bio size} (ended : bio.events = []) (missing : PayloadMissing context size) :
    EndsInPayload context bio size
  | grows {context bio size} (grows : GrowsForever context) : EndsInPayload context bio size
  | later {context bio size context' bio' more}
    (turn : websocketTurn context (orEnd bio) size = .again context' bio' more)
    (ends : EndsInPayload context' (if bio.events = [] then bio else bio') (size - more.length)) :
    EndsInPayload context bio size

variable {ctx ctx' : WebsocketContext} {bio bio' : Source} {size n : Nat} {more : List UInt8}
  {position capacity capacity' : Nat} {stop : Stop}

/-! ## The response stream -/

theorem growCapacity_ok (res : growCapacity size n capacity = .ok capacity') :
    size ≤ capacity' ∧ capacity' < 2 ^ 64 := by
  induction n generalizing capacity with
  | zero => cases res
  | succ n ih =>
    rw [growCapacity] at res
    split at res
    · exact ih res
    · next enough =>
      cases res
      exact ⟨not_lt.mp enough, Nat.mod_lt _ (by decide)⟩

theorem growCapacity_error (res : growCapacity size n capacity = .error stop) : stop = .loops := by
  induction n generalizing capacity with
  | zero =>
    cases res
    rfl
  | succ n ih =>
    rw [growCapacity] at res
    split at res
    · exact ih res
    · cases res

theorem ensureResponseCapacity_error
    (res : ensureResponseCapacity position capacity size = .error stop) :
    stop = .loops := by
  unfold ensureResponseCapacity at res
  dsimp only at res
  split at res
  · split at res
    · exact growCapacity_error res
    · cases res
  · cases res

/-- The stream is left as it is, or it has room for more than the payload. -/
theorem ensureResponseCapacity_ok (le : size < 2 ^ 64) (lt : capacity < 2 ^ 64)
    (res : ensureResponseCapacity position capacity size = .ok capacity') :
    capacity' < 2 ^ 64 ∧ (capacity' = capacity ∨ capacity + size ≤ capacity') := by
  unfold ensureResponseCapacity at res
  dsimp only at res
  split at res
  · split at res
    · next grows =>
      obtain ⟨enough, fits⟩ := growCapacity_ok res
      -- a sum that has wrapped around is smaller than the capacity
      have whole : (capacity + size) % 2 ^ 64 = capacity + size := by omega
      rw [whole] at enough
      exact ⟨fits, .inr enough⟩
    · cases res
      exact ⟨lt, .inl rfl⟩
  · cases res
    exact ⟨lt, .inl rfl⟩

theorem WebsocketContext.Valid.ensured (valid : ctx.Valid)
    (res : ensureResponseCapacity ctx.responsePosition ctx.responseCapacity ctx.payloadLength =
      .ok capacity) :
    ctx.responsePosition ≤ capacity ∧ capacity < 2 ^ 64 ∧
      ensureResponseCapacity ctx.responsePosition capacity ctx.payloadLength = .ok capacity := by
  have room := valid.position
  obtain ⟨fits, rfl | grown⟩ := ensureResponseCapacity_ok valid.payload valid.capacity res
  · exact ⟨room, fits, res⟩
  · exact ⟨by omega, fits, ensureResponseCapacity_fits (by omega) fits⟩

/-! ## Turns keep a parser valid -/

theorem readData_context (bio : Source) (size : Nat) (ctx : WebsocketContext) :
    ∃ length state, (websocketReadData bio size ctx).context =
    { ctx with payloadLength := length, state := state } ∧
      length ≤ ctx.payloadLength ∧ (state = ctx.state ∨ state = .opcodeAndFin ∧ length = 0) ∧
      (websocketReadData bio size ctx).status ≤ size ∧
      ((websocketReadData bio size ctx).status < 0 →
        (websocketReadData bio size ctx).context = ctx) := by
  unfold websocketReadData
  by_cases fin : ctx.payloadLength = 0
  · rw [if_pos fin]
    exact ⟨0, .opcodeAndFin, by rw [← fin], Nat.zero_le _, .inr ⟨rfl, rfl⟩, Int.natCast_nonneg _,
      fun neg => absurd neg (Int.lt_irrefl 0)⟩
  rw [if_neg fin]
  generalize chosen : (if ctx.payloadLength < size then ctx.payloadLength else size) = rlen
  have le : rlen ≤ size := by
    rw [← chosen]
    split <;> omega
  dsimp only
  split
  · exact ⟨_, _, rfl, le_rfl, .inl rfl, by dsimp only; omega, fun _ => rfl⟩
  have short : (bio.read rlen).status ≤ size := by
    have := bio.read_length_le rlen
    obtain ⟨_, _⟩ | ⟨_, -⟩ := bio.read_status rlen <;> omega
  split
  · exact ⟨_, _, rfl, le_rfl, .inl rfl, short, fun _ => rfl⟩
  · next reads =>
    refine ⟨_, _, rfl, Nat.sub_le _ _, ?_, short, fun neg => absurd (.inl (le_of_lt neg)) reads⟩
    split
    · next done => exact .inr ⟨rfl, done⟩
    · exact .inl rfl

theorem websocketReply_spec (reply : websocketReply ctx = .ok ctx') :
    ∃ closeSent position, ctx' = { ctx with closeSent := closeSent, responsePosition := position } ∧
      (position = 0 ∨ position = ctx.responsePosition ∧ ctx.payloadLength ≠ 0 ∧
        (effectiveOpcode ctx = WebsocketPingOpcode ∨ effectiveOpcode ctx = WebsocketCloseOpcode)) := by
  have wrote : ∀ {sPacket opcode ctx'}, websocketContextWriteWstream ctx sPacket opcode = .ok ctx' →
      ∃ closeSent, ctx' = { ctx with closeSent := closeSent } := by
    intro sPacket opcode ctx' written
    unfold websocketContextWriteWstream at written
    split at written
    · cases written
      exact ⟨_, rfl⟩
    · cases sPacket with
      | false => cases written
      | true =>
        cases written
        exact ⟨_, rfl⟩
  unfold websocketReply at reply
  split at reply
  · next ping =>
    split at reply
    · obtain ⟨_, sent, same⟩ := bind_eq_ok.mp reply
      cases same
      unfold websocketReplyPong at sent
      split at sent
      iterate 2
        · obtain ⟨_, rfl⟩ := wrote sent
          exact ⟨_, 0, rfl, .inl rfl⟩
    · next missing =>
      cases reply
      exact ⟨_, _, rfl, .inr ⟨rfl, missing, .inl ping⟩⟩
  split at reply
  · next close =>
    split at reply
    · obtain ⟨_, sent, same⟩ := bind_eq_ok.mp reply
      cases same
      obtain ⟨_, rfl⟩ := wrote sent
      exact ⟨true, 0, rfl, .inl rfl⟩
    · next missing =>
      cases reply
      exact ⟨_, _, rfl, .inr ⟨rfl, missing, .inr close⟩⟩
  · cases reply
    exact ⟨_, 0, rfl, .inl rfl⟩

/-- What `websocket_read_wstream` may change. -/
theorem readWstream_context {read : WebsocketStatus} (valid : ctx.Valid)
    (res : websocketReadWstream bio ctx = .ok read) :
    ∃ length state position capacity, read.context =
        { ctx with
          payloadLength := length
          state := state
          responsePosition := position
          responseCapacity := capacity } ∧
      length ≤ ctx.payloadLength ∧ (state = ctx.state ∨ state = .opcodeAndFin ∧ length = 0) ∧
      position ≤ capacity ∧ capacity < 2 ^ 64 ∧
      (read.status < 0 → state = ctx.state ∧ position = ctx.responsePosition) := by
  unfold websocketReadWstream at res
  split at res
  · next fin =>
    cases res
    exact ⟨0, .opcodeAndFin, _, _,
      by rw [← fin], Nat.zero_le _, .inr ⟨rfl, rfl⟩, valid.position, valid.capacity,
      fun neg => absurd neg (Int.lt_irrefl 0)⟩
  obtain ⟨capacity, ensured, res⟩ := bind_eq_ok.mp res
  obtain ⟨room, fits, -⟩ := valid.ensured ensured
  dsimp only at res
  split at res
  · cases res
  obtain ⟨length, state, after, le, moved, short, same⟩ :=
    readData_context bio (capacity - ctx.responsePosition) { ctx with responseCapacity := capacity }
  split at res
  · next neg =>
    cases res
    exact ⟨_, _, _, _, same neg, le_rfl, .inl rfl, room, fits, fun _ => ⟨rfl, rfl⟩⟩
  · next pass =>
    cases res
    refine ⟨length, state, _, capacity, by rw [after], le, moved, ?_, fits, fun neg => absurd neg pass⟩
    dsimp only
    omega

/-- The parser behind a turn, however it ends. -/
def WebsocketTurn.next : WebsocketTurn → Option WebsocketContext
  | .again context _ _ => some context
  | .failed context _ _ => some context
  | .filled context _ _ => some context
  | .refused context _ => some context
  | .aborted _ => none

theorem payloadTurn_valid (valid : ctx.Valid) (st : ctx.state = .payload)
    (next : (websocketPayloadTurn ctx bio size).next = some ctx') : ctx'.Valid := by
  have handled : ∃ read, websocketHandlePayload bio size ctx = .ok read ∧ read.context = ctx' := by
    unfold websocketPayloadTurn at next
    split at next
    · cases next
    · next read handled =>
      refine ⟨read, handled, ?_⟩
      split at next
      · exact Option.some.inj next
      · split at next <;> exact Option.some.inj next
  obtain ⟨read, handled, rfl⟩ := handled
  unfold websocketHandlePayload at handled
  split at handled
  · next binary =>
    cases handled
    obtain ⟨length, state, after, le, -⟩ := readData_context bio size ctx
    have zero := valid.dropped (by rw [binary]; decide) (by rw [binary]; decide)
    rw [after]
    exact ⟨lt_of_le_of_lt le valid.payload, valid.position, valid.capacity, fun _ => zero, valid.dropped⟩
  obtain ⟨read', res, handled⟩ := bind_eq_ok.mp handled
  obtain ⟨length, state, position, capacity, after, le, moved, room, fits, failed⟩ :=
    readWstream_context valid res
  split at handled
  · next neg =>
    cases handled
    obtain ⟨rfl, rfl⟩ := failed neg
    dsimp only
    rw [after]
    exact ⟨lt_of_le_of_lt le valid.payload, room, fits, valid.between, valid.dropped⟩
  · obtain ⟨replied, reply, same⟩ := bind_eq_ok.mp handled
    cases same
    obtain ⟨closeSent, position', rfl, kept⟩ := websocketReply_spec reply
    rw [after] at kept ⊢
    dsimp only at kept ⊢
    refine ⟨lt_of_le_of_lt le valid.payload, ?_, fits, fun moving => ?_, fun ping close => ?_⟩
    · dsimp only
      omega
    · -- the state is only left when the last byte has come, and then the stream is emptied
      obtain zero | ⟨-, missing, -⟩ := kept
      · exact zero
      · obtain same | ⟨-, done⟩ := moved
        · exact absurd (same.trans st) moving
        · exact absurd done missing
    · obtain zero | ⟨-, -, kind⟩ := kept
      · exact zero
      · exact absurd kind (not_or.mpr ⟨ping, close⟩)

/-- A turn keeps the response stream as it was created or grown. -/
theorem websocketTurn_valid (valid : ctx.Valid)
    (next : (websocketTurn ctx bio size).next = some ctx') : ctx'.Valid := by
  have header : ∀ (step : UInt8 → WebsocketContext), (∀ byte, (step byte).Valid) →
      (websocketHeaderTurn ctx bio step).next = some ctx' → ctx'.Valid := by
    intro step keeps turn
    unfold websocketHeaderTurn at turn
    dsimp only at turn
    split at turn
    · cases turn
      exact valid
    · cases turn
      exact keeps _
  have idle : ctx.state ≠ .payload → ∀ {ctx' : WebsocketContext}, ctx'.payloadLength < 2 ^ 64 →
      ctx'.responsePosition = ctx.responsePosition → ctx'.responseCapacity = ctx.responseCapacity →
        ctx'.Valid := by
    intro between ctx' payload position capacity
    have zero := position.trans (valid.between between)
    exact ⟨payload, by omega, by rw [capacity]; exact valid.capacity, fun _ => zero, fun _ _ => zero⟩
  have lengths :
      ∀ lenLength, ctx.state ≠ .payload → (websocketLengthTurn ctx bio lenLength).next = some ctx' →
      ctx'.Valid := by
    intro lenLength between turn
    unfold websocketLengthTurn at turn
    split at turn
    · refine header (websocketLengthByte ctx) (fun byte => idle between ?_ rfl rfl) turn
      exact Nat.or_lt_two_pow (Nat.mod_lt _ (by decide)) (lt_trans byte.toNat_lt (by decide))
    · cases turn
      exact idle between valid.payload rfl rfl
  unfold websocketTurn at next
  cases state : ctx.state with
  | opcodeAndFin =>
    rw [state] at next
    exact header (websocketOpcodeAndFin ctx)
      (fun byte => idle (by rw [state]; decide) valid.payload rfl rfl) next
  | lengthAndMasking =>
    rw [state] at next
    refine header (websocketLengthAndMasking ctx)
      (fun byte => idle (by rw [state]; decide) ?_ rfl rfl) next
    have lt := (byte &&& 0x7f).toNat_lt
    unfold websocketLengthAndMasking
    dsimp only
    split <;> omega
  | shortLength =>
    rw [state] at next
    exact lengths 2 (by rw [state]; decide) next
  | longLength =>
    rw [state] at next
    exact lengths 8 (by rw [state]; decide) next
  | maskingKey =>
    rw [state] at next
    cases next
    exact valid
  | payload =>
    rw [state] at next
    exact payloadTurn_valid valid state next

/-- A call keeps the response stream valid, by induction on the measure. -/
theorem websocketLoop_valid {data : List UInt8} {read : WebsocketRead} (valid : ctx.Valid)
    (done : websocketLoop ctx bio size data = .ok read) : read.context.Valid := by
  have returned : ∀ {data context bio}, websocketReturn data context bio = .ok read →
      read.context = context := by
    intro data context bio done
    unfold websocketReturn at done
    split at done
    · cases done
    · cases done
      rfl
  -- by the turns that are left
  induction measure : websocketMeasure ctx bio using Nat.strongRecOn generalizing ctx bio size data with
  | ind _ ih =>
    rw [websocketLoop] at done
    split at done
    · next turn =>
      have less := websocketTurn_measure turn
      rw [measure] at less
      exact ih _ less (websocketTurn_valid valid (by rw [turn]; rfl)) done rfl
    · next turn =>
      have valid' := websocketTurn_valid valid (by rw [turn]; rfl)
      split at done
      · rw [returned done]
        exact valid'
      · cases done
        exact valid'
    · next turn =>
      rw [returned done]
      exact websocketTurn_valid valid (by rw [turn]; rfl)
    · next turn =>
      cases done
      exact websocketTurn_valid valid (by rw [turn]; rfl)
    · cases done

/-- A parser is valid after any calls. -/
theorem contextReads_valid {sizes : List Nat} {data : List UInt8} (valid : ctx.Valid)
    (done : websocketContextReads ctx bio sizes = .ok (data, ctx', bio')) : ctx'.Valid := by
  induction sizes generalizing ctx bio data with
  | nil =>
    cases done
    exact valid
  | cons size sizes ih =>
    obtain ⟨read, first, rest⟩ := bind_eq_ok.mp done
    obtain ⟨⟨_, _, _⟩, rest, same⟩ := bind_eq_ok.mp rest
    cases same
    exact ih (websocketLoop_valid valid first) rest

theorem websocketContextNew_valid : websocketContextNew.Valid :=
  ⟨by decide, by decide, by decide, fun _ => rfl, fun _ _ => rfl⟩

/-! ## Turns at the end -/

theorem payloadTurn_none (none : ctx.payloadLength = 0)
    (turn : websocketPayloadTurn ctx bio size = .again ctx' bio' more) : bio' = bio := by
  simp only [websocketPayloadTurn, websocketHandlePayload, websocketReadWstream,
    websocketReadData, none, if_true, Int.lt_irrefl, if_false, ok_bind] at turn
  split at turn
  · cases turn
  · grind [bind_eq_ok]

section
variable (fin : bio.events = [])
include fin

theorem read_orEnd (some : n ≠ 0) : (orEnd bio).read n = ⟨0, [], bio⟩ := by
  obtain ⟨_, _⟩ := bio
  cases fin
  simp [orEnd, Source.read, some]

theorem readData_orEnd (missing : 0 < ctx.payloadLength) (some : 0 < size) :
    websocketReadData (orEnd bio) size ctx =
      if INT32_MAX < min ctx.payloadLength size then ⟨-1, [], ctx, orEnd bio⟩
      else ⟨0, [], ctx, bio⟩ := by
  have request : (if ctx.payloadLength < size then ctx.payloadLength else size) =
      min ctx.payloadLength size := by
    split <;> omega
  have left : ctx.payloadLength ≠ 0 := by omega
  simp only [websocketReadData, left, request, if_false, gt_iff_lt, read_orEnd fin (by omega :
    min ctx.payloadLength size ≠ 0), Int.le_refl, true_or, if_true]

/-- Nothing is collected at the end, but room is made for it. -/
theorem readWstream_orEnd (missing : 0 < ctx.payloadLength)
    (res : ensureResponseCapacity ctx.responsePosition ctx.responseCapacity ctx.payloadLength =
      .ok capacity)
    (room : ctx.responsePosition < capacity) : websocketReadWstream (orEnd bio) ctx =
      if INT32_MAX < min ctx.payloadLength (capacity - ctx.responsePosition) then
        .ok ⟨-1, [], { ctx with responseCapacity := capacity }, orEnd bio⟩
      else .ok ⟨0, [], { ctx with responseCapacity := capacity }, bio⟩ := by
  have left : ctx.payloadLength ≠ 0 := by omega
  have some : capacity - ctx.responsePosition ≠ 0 := by omega
  unfold websocketReadWstream
  rw [if_neg left, res]
  simp only [ok_bind, if_neg some]
  rw [@readData_orEnd { ctx with responseCapacity := capacity } bio _ fin missing
    (Nat.pos_of_ne_zero some)]
  by_cases big : INT32_MAX < min ctx.payloadLength (capacity - ctx.responsePosition)
  · simp only [if_pos big]
    rfl
  · simp only [if_neg big]
    rfl

end

theorem websocketReply_missing (valid : ctx.Valid) (missing : 0 < ctx.payloadLength) :
    websocketReply ctx = .ok ctx := by
  have left : ctx.payloadLength ≠ 0 := by omega
  unfold websocketReply
  by_cases ping : effectiveOpcode ctx = WebsocketPingOpcode
  · rw [if_pos ping, if_neg left]
  rw [if_neg ping]
  by_cases close : effectiveOpcode ctx = WebsocketCloseOpcode
  · rw [if_pos close, if_neg left]
  · rw [if_neg close, ← valid.dropped ping close]

theorem WebsocketContext.Valid.grown (valid : ctx.Valid)
    (res : ensureResponseCapacity ctx.responsePosition ctx.responseCapacity ctx.payloadLength =
      .ok capacity) :
    WebsocketContext.Valid { ctx with responseCapacity := capacity } := by
  obtain ⟨room, fits, -⟩ := valid.ensured res
  exact ⟨valid.payload, room, fits, valid.between, valid.dropped⟩

theorem websocketTurn_payload (st : ctx.state = .payload) :
    websocketTurn ctx bio size = websocketPayloadTurn ctx bio size := by
  rw [websocketTurn, st]

/-- Behind a frame that grows without an end no turn comes. -/
theorem GrowsForever.turn (grows : GrowsForever ctx) (bio : Source) (size : Nat) :
    websocketTurn ctx bio size = .aborted .loops := by
  have left : ctx.payloadLength ≠ 0 := by
    have := grows.missing
    omega
  have stuck : websocketReadWstream bio ctx = .error .loops := by
    unfold websocketReadWstream
    rw [if_neg left]
    cases res : ensureResponseCapacity ctx.responsePosition ctx.responseCapacity ctx.payloadLength with
    | error stop =>
      rw [ensureResponseCapacity_error res]
      rfl
    | ok capacity =>
      have none : capacity - ctx.responsePosition = 0 := Nat.sub_eq_zero_of_le (grows.full capacity res)
      simp only [ok_bind, if_pos none]
  rw [websocketTurn_payload grows.state]
  simp only [websocketPayloadTurn, websocketHandlePayload, if_neg grows.collected, stuck]
  rfl

theorem websocketReply_error (failed : websocketReply ctx = .error stop) : stop = .assertion := by
  have write : ∀ {sPacket opcode}, websocketContextWriteWstream ctx sPacket opcode = .error stop →
      stop = .assertion := by
    intro sPacket opcode failed
    unfold websocketContextWriteWstream at failed
    split at failed
    · cases failed
    · cases sPacket with
      | true => cases failed
      | false =>
        cases failed
        rfl
  have sent : ∀ {answer : Except Stop WebsocketContext} {next : WebsocketContext → WebsocketContext},
      (answer = .error stop → stop = .assertion) →
        (do let context ← answer; .ok (next context)) = .error stop →
      stop = .assertion := by
    intro answer next fails failed
    cases answer with
    | error _ => exact fails failed
    | ok _ => cases failed
  unfold websocketReply at failed
  split at failed
  · split at failed
    · refine sent (fun pong => ?_) failed
      unfold websocketReplyPong at pong
      split at pong <;> exact write pong
    · cases failed
  split at failed
  · split at failed
    · exact sent write failed
    · cases failed
  · cases failed

/-- A turn that never ends is one in which the response stream cannot grow to the size asked for. -/
theorem growsForever_of_turn (turn : websocketTurn ctx bio size = .aborted .loops) :
    GrowsForever ctx := by
  have header : ∀ step, websocketHeaderTurn ctx bio step ≠ .aborted .loops := by
    intro step turn
    unfold websocketHeaderTurn at turn
    dsimp only at turn
    split at turn <;> cases turn
  unfold websocketTurn websocketLengthTurn at turn
  split at turn
  · exact absurd turn (header _)
  · exact absurd turn (header _)
  iterate 2
    · split at turn
      · exact absurd turn (header _)
      · cases turn
  · cases turn
  · next state =>
    unfold websocketPayloadTurn at turn
    split at turn
    · next handled =>
      cases turn
      unfold websocketHandlePayload at handled
      split at handled
      · cases handled
      · next collected =>
        have stuck : websocketReadWstream bio ctx = .error .loops := by
          cases res : websocketReadWstream bio ctx with
          | error stop =>
            rw [res] at handled
            exact handled
          | ok read =>
            -- the answers only fail an assertion
            rw [res, ok_bind] at handled
            split at handled
            · cases handled
            · cases reply : websocketReply read.context with
              | error stop =>
                rw [reply, websocketReply_error reply] at handled
                cases handled
              | ok _ =>
                rw [reply] at handled
                cases handled
        unfold websocketReadWstream at stuck
        split at stuck
        · cases stuck
        · next missing =>
          refine ⟨state, Nat.pos_of_ne_zero missing, collected, fun capacity res => ?_⟩
          rw [res, ok_bind] at stuck
          dsimp only at stuck
          split at stuck
          · next none => exact Nat.le_of_sub_eq_zero none
          · split at stuck <;> cases stuck
    · split at turn
      · cases turn
      · split at turn <;> cases turn

/-- At the end a payload that is missing is asked for again. -/
theorem PayloadMissing.turn (valid : ctx.Valid) (missing : PayloadMissing ctx size)
    (fin : bio.events = []) :
    websocketTurn ctx (orEnd bio) size = .aborted .loops ∨
      ∃ capacity,
      websocketTurn ctx (orEnd bio) size = .again { ctx with responseCapacity := capacity } bio [] ∧
        WebsocketContext.Valid { ctx with responseCapacity := capacity } ∧
        PayloadMissing { ctx with responseCapacity := capacity } size := by
  have request := missing.request
  have some := missing.room
  -- no byte was read, so that `0 >= size` does not end the loop
  have room : ¬(0 : Int) ≥ size := by omega
  unfold payloadRequest at request
  by_cases binary : effectiveOpcode ctx = WebsocketBinaryOpcode
  · rw [if_pos binary] at request
    refine .inr ⟨ctx.responseCapacity, ?_, valid, missing⟩
    rw [websocketTurn_payload missing.state]
    simp only [websocketPayloadTurn, websocketHandlePayload, if_pos binary,
      readData_orEnd fin missing.missing some,
      if_neg (not_lt.mpr request), Int.lt_irrefl, if_false, if_neg room]
  rw [if_neg binary] at request
  cases res : ensureResponseCapacity ctx.responsePosition ctx.responseCapacity ctx.payloadLength with
  | error stop =>
    refine .inl (GrowsForever.turn ⟨missing.state, missing.missing, binary, fun capacity got => ?_⟩ _ _)
    rw [res] at got
    cases got
  | ok capacity =>
    rw [res] at request
    have again := (valid.ensured res).2.2
    by_cases fits : ctx.responsePosition < capacity
    · refine .inr ⟨capacity, ?_, valid.grown res, missing.state, missing.missing, some, ?_⟩
      · rw [websocketTurn_payload missing.state]
        simp only [websocketPayloadTurn, websocketHandlePayload, if_neg binary,
          readWstream_orEnd fin missing.missing res fits, if_neg (not_lt.mpr request),
            ok_bind, Int.lt_irrefl, if_false,
          websocketReply_missing (valid.grown res) missing.missing, if_neg room]
      · unfold payloadRequest
        rw [if_neg (show ¬effectiveOpcode { ctx with responseCapacity := capacity } = _ from binary)]
        dsimp only
        rw [again]
        exact request
    · refine .inl (GrowsForever.turn ⟨missing.state, missing.missing, binary,
        fun capacity' got => ?_⟩ _ _)
      rw [res] at got
      cases got
      exact not_lt.mp fits

section
variable (fin : bio.events = [])
include fin

theorem payloadTurn_again (missing : 0 < ctx.payloadLength)
    (turn : websocketPayloadTurn ctx (orEnd bio) size = .again ctx' bio' more) :
    0 < size ∧ payloadRequest ctx size ≤ INT32_MAX := by
  unfold websocketPayloadTurn at turn
  split at turn
  · cases turn
  · next read handled =>
    split at turn
    · cases turn
    split at turn
    · cases turn
    · next pass room =>
      have some : 0 < size := by omega
      refine ⟨some, ?_⟩
      unfold websocketHandlePayload at handled
      unfold payloadRequest
      split at handled
      · next binary =>
        rw [if_pos binary]
        rw [readData_orEnd fin missing some] at handled
        split at handled
        · cases handled
          exact absurd (by decide : (-1 : Int) < 0) pass
        · next small => exact not_lt.mp small
      · next binary =>
        rw [if_neg binary]
        obtain ⟨read', got, handled⟩ := bind_eq_ok.mp handled
        cases res :
          ensureResponseCapacity ctx.responsePosition ctx.responseCapacity ctx.payloadLength with
        | error _ => exact Nat.zero_le _
        | ok capacity =>
          dsimp only
          by_cases fits : ctx.responsePosition < capacity
          · rw [readWstream_orEnd fin missing res fits] at got
            split at got
            · cases got
              cases handled
              exact absurd (by decide : (-1 : Int) < 0) pass
            · next small => exact not_lt.mp small
          · rw [Nat.sub_eq_zero_of_le (not_lt.mp fits), Nat.min_zero]
            exact Nat.zero_le _

/-- Where the loop does not wait for more of a payload, it goes on past the end without a read. -/
theorem websocketTurn_unread (stays : ¬PayloadMissing ctx size)
    (turn : websocketTurn ctx (orEnd bio) size = .again ctx' bio' more) : bio' = orEnd bio := by
  have header : ∀ next, websocketHeaderTurn ctx (orEnd bio) next ≠ .again ctx' bio' more := by
    intro next
    simp [websocketHeaderTurn, read_orEnd fin]
  unfold websocketTurn websocketLengthTurn at turn
  split at turn
  · exact absurd turn (header _)
  · exact absurd turn (header _)
  iterate 2
    · split at turn
      · exact absurd turn (header _)
      · cases turn
        rfl
  · cases turn
  · next st =>
    rcases Nat.eq_zero_or_pos ctx.payloadLength with none | missing
    · exact payloadTurn_none none turn
    · obtain ⟨room, request⟩ := payloadTurn_again fin missing turn
      exact absurd ⟨st, missing, room, request⟩ stays

end

/-! ## Whole calls -/

theorem PayloadMissing.turns (valid : ctx.Valid) (missing : PayloadMissing ctx size)
    (ended : bio.events = []) (n : Nat) :
    websocketTurns n ctx bio size = true := by
  induction n generalizing ctx with
  | zero => rfl
  | succ n ih =>
    obtain stuck | ⟨capacity, turn, valid', missing'⟩ := missing.turn valid ended
    · simp only [websocketTurns, stuck]
    · simp only [websocketTurns, turn, ended, if_true]
      exact ih valid' missing'

theorem EndsInPayload.turns (valid : ctx.Valid) (ends : EndsInPayload ctx bio size) (n : Nat) :
    websocketTurns n ctx bio size = true := by
  induction ends generalizing n with
  | here ended missing => exact missing.turns valid ended n
  | grows grows =>
    cases n with
    | zero => rfl
    | succ n => simp only [websocketTurns, grows.turn]
  | later turn _ ih =>
    cases n with
    | zero => rfl
    | succ n =>
      simp only [websocketTurns, turn]
      exact ih (websocketTurn_valid valid (by rw [turn]; rfl)) n

theorem websocketTurns_ends (stays : ¬EndsInPayload ctx bio size) (room : websocketMeasure ctx bio < n) :
    websocketTurns n ctx bio size = false := by
  induction n generalizing ctx bio size with
  | zero => exact absurd room (Nat.not_lt_zero _)
  | succ n ih =>
    unfold websocketTurns
    split
    · next turn =>
      refine ih (fun ends => stays (.later turn ends)) ?_
      by_cases ended : bio.events = []
      · have less := websocketTurn_measure turn
        rw [websocketTurn_unread ended (fun missing => stays (.here ended missing)) turn] at less
        rw [if_pos ended]
        unfold websocketMeasure at room less ⊢
        omega
      · rw [orEnd, if_neg ended] at turn
        have less := websocketTurn_measure turn
        rw [if_neg ended]
        omega
    · next turn => exact absurd (.grows (growsForever_of_turn turn)) stays
    · rfl

end KvmServer.Core
