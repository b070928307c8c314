import KvmServer.Core.Websocket

/-! # What is read from a WebSocket

However the transport cuts the frames into pieces and whatever buffers the caller has, the bytes
the calls return are the payloads of the binary frames, one after the other. -/

namespace KvmServer.Core
open Lib Winpr List Nat

/-! ## Frames -/

inductive WebsocketKind where
  | binary
  | continuation
  | ping
  | pong
deriving DecidableEq

def WebsocketKind.opcode : WebsocketKind → UInt8
  | .binary => WebsocketBinaryOpcode
  | .continuation => WebsocketContinuationOpcode
  | .ping => WebsocketPingOpcode
  | .pong => WebsocketPongOpcode

def WebsocketKind.effective : WebsocketKind → UInt8
  | .continuation => WebsocketBinaryOpcode
  | kind => kind.opcode

def WebsocketKind.isControl : WebsocketKind → Bool
  | .ping => true
  | .pong => true
  | _ => false

def WebsocketKind.data (kind : WebsocketKind) (payload : List UInt8) : List UInt8 :=
  if kind.isControl then [] else payload

@[simp] theorem WebsocketKind.data_nil (kind : WebsocketKind) : kind.data [] = [] := by
  cases kind <;> rfl

inductive WebsocketLengthForm where
  | direct
  | short
  | long

def WebsocketLengthForm.Fits : WebsocketLengthForm → Nat → Prop
  | .direct, length => length < 126
  | .short, length => length < 2 ^ 16
  | .long, length => length < 2 ^ 64

instance (form : WebsocketLengthForm) (length : Nat) : Decidable (form.Fits length) :=
  match form with
  | .direct => inferInstanceAs (Decidable (length < 126))
  | .short => inferInstanceAs (Decidable (length < 2 ^ 16))
  | .long => inferInstanceAs (Decidable (length < 2 ^ 64))

def WebsocketLengthForm.bytes : WebsocketLengthForm → Nat → List UInt8
  | .direct, length => [UInt8.ofNat length]
  | .short, length => 126 :: beBytes 2 length
  | .long, length => 127 :: beBytes 8 length

variable {length : Nat} {next : UInt8 → WebsocketContext} {rest left : List UInt8}

theorem WebsocketLengthForm.Fits.lt {form : WebsocketLengthForm} (fits : form.Fits length) :
    length < 2 ^ 64 := by
  cases form with
  | direct | short => exact lt_trans fits (by decide)
  | long => exact fits

structure WebsocketFrame where
  kind : WebsocketKind
  fin : Bool
  form : WebsocketLengthForm
  payload : List UInt8
  fits : form.Fits payload.length
  control : kind.isControl = true → 0 < payload.length ∧ payload.length ≤ 125

variable (frame : WebsocketFrame)

def WebsocketFrame.firstByte : UInt8 :=
  (if frame.fin then WEBSOCKET_FIN_BIT else 0) ||| frame.kind.opcode

def WebsocketFrame.bytes : List UInt8 :=
  frame.firstByte :: (frame.form.bytes frame.payload.length ++ frame.payload)

def WebsocketFrame.data : List UInt8 := frame.kind.data frame.payload

variable (frames : List WebsocketFrame)

def framesBytes : List UInt8 := frames.flatMap WebsocketFrame.bytes

def framesData : List UInt8 := frames.flatMap WebsocketFrame.data

theorem framesBytes_cons : framesBytes (frame :: frames) = frame.firstByte ::
      (frame.form.bytes frame.payload.length ++ (frame.payload ++ framesBytes frames)) := by
  rw [framesBytes, flatMap_cons, WebsocketFrame.bytes, cons_append, append_assoc]
  rfl

/-- The frames are messages, each a binary frame and its continuations, with control frames in
between.  The first one goes on with a message if `started`. -/
def Fragmented : Bool → List WebsocketFrame → Prop
  | _, [] => True
  | started, frame :: frames =>
    match frame.kind with
    | .binary => started = false ∧ Fragmented (!frame.fin) frames
    | .continuation => started = true ∧ Fragmented (!frame.fin) frames
    | .ping => Fragmented started frames
    | .pong => Fragmented started frames

/-- The reader is ready for the frames: it knows what a continuation continues. -/
def Follows (fragmentOriginalOpcode : UInt8) (frames : List WebsocketFrame) : Prop :=
  ∃ started, Fragmented started frames ∧
    (started = true → fragmentOriginalOpcode &&& 0xf = WebsocketBinaryOpcode)

/-- Nothing is collected for an answer. -/
structure WebsocketContext.Idle (context : WebsocketContext) : Prop where
  position : context.responsePosition = 0
  capacity : context.responseCapacity = 1024

/-- At most 125 bytes of a control frame are collected when `left` more have come. -/
structure WebsocketContext.Collects (context : WebsocketContext) (kind : WebsocketKind)
    (left : List UInt8) : Prop where
  control : kind.isControl = true → context.responsePosition + left.length ≤ 125
  binary : kind.isControl = false → context.responsePosition = 0
  capacity : context.responseCapacity = 1024

/-- What is read and what the caller still gets, for every place the reader can be at. -/
inductive WebsocketAhead : WebsocketContext → List UInt8 → List UInt8 → Prop
  | opcodeAndFin {context : WebsocketContext} {frames : List WebsocketFrame}
    (state : context.state = .opcodeAndFin)
      (idle : context.Idle) (follows : Follows context.fragmentOriginalOpcode frames) :
      WebsocketAhead context (framesBytes frames) (framesData frames)
  | lengthAndMasking {context : WebsocketContext} {frames : List WebsocketFrame} {frame : WebsocketFrame}
      (state : context.state = .lengthAndMasking) (idle : context.Idle)
      (kind : effectiveOpcode context = frame.kind.effective)
        (follows : Follows context.fragmentOriginalOpcode frames) :
      WebsocketAhead context
        (frame.form.bytes frame.payload.length ++ (frame.payload ++ framesBytes frames))
        (frame.data ++ framesData frames)
  | length {context : WebsocketContext} {frames : List WebsocketFrame} {frame : WebsocketFrame}
      {lengthLeft : List UInt8}
      (state : (context.state = .shortLength ∧ context.lengthAndMaskPosition + lengthLeft.length = 2) ∨
        (context.state = .longLength ∧ context.lengthAndMaskPosition + lengthLeft.length = 8))
      (masking : context.masking = false) (idle : context.Idle)
      (value : context.payloadLength * 2 ^ (8 * lengthLeft.length) + beValue lengthLeft =
        frame.payload.length)
      (kind : effectiveOpcode context = frame.kind.effective)
      (follows : Follows context.fragmentOriginalOpcode frames) :
      WebsocketAhead context (lengthLeft ++ (frame.payload ++ framesBytes frames))
        (frame.data ++ framesData frames)
  | payload {context : WebsocketContext} {frames : List WebsocketFrame}
    {kind : WebsocketKind} {left : List UInt8}
      (state : context.state = .payload) (length : context.payloadLength = left.length)
      (effective : effectiveOpcode context = kind.effective)
      (control : kind.isControl = true → 0 < left.length) (collects : context.Collects kind left)
      (follows : Follows context.fragmentOriginalOpcode frames) :
      WebsocketAhead context (left ++ framesBytes frames) (kind.data left ++ framesData frames)

variable {context : WebsocketContext} {pending data : List UInt8} {bio : Source} {size : Nat}
  {frame : WebsocketFrame} {frames : List WebsocketFrame} (payload : List UInt8)
    (events : List SourceEvent)

theorem WebsocketAhead.pending_eq_nil {unread : List UInt8}
    (ahead : WebsocketAhead context unread pending) (fin : unread = []) : pending = [] := by
  have noFrames : ∀ frames : List WebsocketFrame, framesBytes frames = [] → framesData frames = [] := by
    intro frames none
    cases frames with
    | nil => rfl
    | cons frame frames => cases none
  cases ahead with
  | opcodeAndFin st idle follows => exact noFrames _ fin
  | @lengthAndMasking frames frame st idle kind follows =>
    cases form : frame.form <;> rw [form] at fin <;> cases fin
  | length st masking idle value kind follows =>
    obtain ⟨-, rest⟩ := append_eq_nil_iff.mp fin
    obtain ⟨empty, none⟩ := append_eq_nil_iff.mp rest
    rw [WebsocketFrame.data, empty, WebsocketKind.data_nil, noFrames _ none, nil_append]
  | payload st length effective control collects follows =>
    obtain ⟨empty, none⟩ := append_eq_nil_iff.mp fin
    rw [empty, WebsocketKind.data_nil, noFrames _ none, nil_append]

/-! ## One turn -/

structure Progress (bio bio' : Source) : Prop where
  enough : bio.Enough → bio'.Enough
  events : bio'.events.length ≤ bio.events.length

theorem Progress.refl (bio : Source) : Progress bio bio := ⟨id, le_rfl⟩

theorem Progress.trans {a b c : Source} (fst : Progress a b) (second : Progress b c) : Progress a c :=
  ⟨fun room => second.enough (fst.enough room), le_trans second.events fst.events⟩

theorem Progress.read (bio : Source) (n : Nat) : Progress bio (bio.read n).source := by
  refine ⟨fun room => room.read n, ?_⟩
  by_cases zero : n = 0
  · rw [zero]
    exact le_rfl
  rw [Source.read_events (Nat.pos_of_ne_zero zero), length_tail]
  omega

def WebsocketTurn.Keeps (turn : WebsocketTurn) (bio : Source) (size : Nat) (pending : List UInt8) :
    Prop :=
  match turn with
  | .again context bio' data =>
    Progress bio bio' ∧ data.length ≤ size ∧ (0 < size → data.length < size) ∧
      ∃ later, pending = data ++ later ∧ WebsocketAhead context bio'.unread later
  | .filled context bio' data =>
    Progress bio bio' ∧ data.length ≤ size ∧ (0 < size → bio'.events = bio.events.tail) ∧
      ∃ later, pending = data ++ later ∧ WebsocketAhead context bio'.unread later
  | .failed context bio' status =>
    Progress bio bio' ∧ status ≤ 0 ∧ bio'.events = bio.events.tail ∧
      WebsocketAhead context bio'.unread pending
  | .refused _ _ => False
  | .aborted _ => False

theorem headerTurn_keeps (pre : WebsocketAhead context bio.unread pending)
    (after : ∀ byte unread, bio.unread = byte :: unread → WebsocketAhead (next byte) unread pending) :
    (websocketHeaderTurn context bio next).Keeps bio size pending := by
  have data := bio.read_data 1
  have used := @Source.read_events bio 1 (by decide)
  have progress := Progress.read bio 1
  unfold websocketHeaderTurn
  obtain ⟨_, _⟩ | ⟨fail, none⟩ := bio.read_status 1
  · have one : (bio.read 1).data.length ≤ 1 := bio.read_length_le 1
    obtain ⟨fst, got⟩ := length_eq_one_iff.mp (by omega : (bio.read 1).data.length = 1)
    rw [got, singleton_append] at data
    simp only [if_neg (by omega : ¬(bio.read 1).status ≤ 0), got, headD_cons]
    exact ⟨progress, zero_le _, id, pending, rfl, after fst _ data⟩
  simp only [if_pos fail]
  rw [none, nil_append] at data
  refine ⟨progress, fail, used, ?_⟩
  rw [← data]
  exact pre

theorem WebsocketFrame.firstByte_opcode : frame.firstByte &&& 0xf = frame.kind.opcode := by
  unfold WebsocketFrame.firstByte
  cases frame.fin <;> cases frame.kind <;> decide

theorem opcodeAndFin_follows (follows : Follows context.fragmentOriginalOpcode (frame :: frames)) :
    effectiveOpcode (websocketOpcodeAndFin context frame.firstByte) = frame.kind.effective ∧
      Follows (websocketOpcodeAndFin context frame.firstByte).fragmentOriginalOpcode frames := by
  obtain ⟨started, fragment, known⟩ := follows
  have low := frame.firstByte_opcode
  unfold Fragmented at fragment
  unfold effectiveOpcode websocketOpcodeAndFin
  cases kind : frame.kind with
  | binary =>
    rw [kind] at fragment low
    simp only [low]
    exact ⟨rfl, !frame.fin, fragment.2, fun _ => low⟩
  | continuation =>
    rw [kind] at fragment low
    have binary := known fragment.1
    simp only [low]
    exact ⟨binary, !frame.fin, fragment.2, fun _ => binary⟩
  | ping | pong =>
    rw [kind] at fragment low
    simp only [low]
    exact ⟨rfl, started, fragment, known⟩

theorem WebsocketFrame.collects (idle : context.Idle) : context.Collects frame.kind frame.payload := by
  refine ⟨fun isControl => ?_, fun _ => idle.position, idle.capacity⟩
  rw [idle.position, zero_add]
  exact (frame.control isControl).2

theorem lengthAndMasking_ahead (idle : context.Idle)
    (kind : effectiveOpcode context = frame.kind.effective)
    (follows : Follows context.fragmentOriginalOpcode frames) :
    ∃ byte rest,
    frame.form.bytes frame.payload.length ++ (frame.payload ++ framesBytes frames) = byte :: rest ∧
      WebsocketAhead (websocketLengthAndMasking context byte) rest
      (frame.data ++ framesData frames) := by
  have fits := frame.fits
  cases form : frame.form with
  | direct =>
    rw [form] at fits
    have plain : ∀ n : Fin 126, ¬UInt8.ofNat n &&& WEBSOCKET_MASK_BIT = WEBSOCKET_MASK_BIT ∧
        (UInt8.ofNat n &&& 0x7f).toNat = n := by decide
    obtain ⟨unmasked, length⟩ := plain ⟨frame.payload.length, fits⟩
    refine ⟨UInt8.ofNat frame.payload.length, frame.payload ++ framesBytes frames, rfl, ?_⟩
    have lt : frame.payload.length < 126 := fits
    apply WebsocketAhead.payload
    · simp only [websocketLengthAndMasking, length, if_pos lt, decide_eq_false unmasked, afterLength,
        Bool.false_eq_true, if_false]
    · simp only [websocketLengthAndMasking, length, if_pos lt]
    · exact kind
    · exact fun isControl => (frame.control isControl).1
    · exact WebsocketFrame.collects ⟨idle.position, idle.capacity⟩
    · exact follows
  | short =>
    rw [form] at fits
    have st : (websocketLengthAndMasking context 126).lengthAndMaskPosition = 0 := rfl
    have zero : (websocketLengthAndMasking context 126).payloadLength = 0 := rfl
    refine ⟨126, beBytes 2 frame.payload.length ++ (frame.payload ++ framesBytes frames), rfl, ?_⟩
    refine .length (.inl ⟨rfl, ?_⟩) rfl ⟨idle.position, idle.capacity⟩ ?_ kind follows
    · rw [st, beBytes_length]
    · rw [zero, zero_mul, zero_add, beValue_beBytes, mod_eq_of_lt fits]
  | long =>
    rw [form] at fits
    have st : (websocketLengthAndMasking context 127).lengthAndMaskPosition = 0 := rfl
    have zero : (websocketLengthAndMasking context 127).payloadLength = 0 := rfl
    refine ⟨127, beBytes 8 frame.payload.length ++ (frame.payload ++ framesBytes frames), rfl, ?_⟩
    refine .length (.inr ⟨rfl, ?_⟩) rfl ⟨idle.position, idle.capacity⟩ ?_ kind follows
    · rw [st, beBytes_length]
    · rw [zero, zero_mul, zero_add, beValue_beBytes, mod_eq_of_lt fits]

theorem lengthByte_payloadLength {byte : UInt8}
    (value : context.payloadLength * 2 ^ (8 * (byte :: rest).length) + beValue
      (byte :: rest) = length) (fits : length < 2 ^ 64) :
    (websocketLengthByte context byte).payloadLength * 2 ^
    (8 * rest.length) + beValue rest = length := by
  have lt := byte.toNat_lt
  have pos : 0 < 2 ^ (8 * rest.length) := Nat.two_pow_pos _
  rw [beValue_cons, length_cons, mul_succ, pow_add] at value
  have lo : context.payloadLength * 2 ^ 8 < 2 ^ 64 := by
    have grows :
        context.payloadLength * 2 ^ 8 ≤ context.payloadLength * (2 ^ (8 * rest.length) * 2 ^ 8) :=
      Nat.mul_le_mul_left _ (Nat.le_mul_of_pos_left _ pos)
    omega
  have added :
      (websocketLengthByte context byte).payloadLength = context.payloadLength * 2 ^ 8 + byte.toNat := by
    unfold websocketLengthByte
    rw [shiftLeft_eq, mod_eq_of_lt lo, ← shiftLeft_eq, ← shiftLeft_add_eq_or_of_lt lt]
  rw [added, add_mul, mul_assoc, mul_comm (2 ^ 8), add_assoc]
  exact value

theorem lengthTurn_keeps {lenLength : Nat} {lenLeft : List UInt8}
    (st : (context.state = .shortLength ∧ lenLength = 2) ∨ (context.state = .longLength ∧ lenLength = 8))
    (position : context.lengthAndMaskPosition + lenLeft.length = lenLength)
    (masking : context.masking = false) (idle : context.Idle)
    (value : context.payloadLength * 2 ^ (8 * lenLeft.length) + beValue lenLeft = frame.payload.length)
    (kind : effectiveOpcode context = frame.kind.effective)
    (follows : Follows context.fragmentOriginalOpcode frames)
    (unread : bio.unread = lenLeft ++ (frame.payload ++ framesBytes frames)) :
    (websocketLengthTurn context bio lenLength).Keeps bio size (frame.data ++ framesData frames) := by
  have place : ∀ {context : WebsocketContext} {left : List UInt8},
      (context.state = .shortLength ∧ lenLength = 2) ∨ (context.state = .longLength ∧ lenLength = 8) →
      context.lengthAndMaskPosition + left.length = lenLength →
      (context.state = .shortLength ∧ context.lengthAndMaskPosition + left.length = 2) ∨
        (context.state = .longLength ∧ context.lengthAndMaskPosition + left.length = 8) := by
    rintro context left (⟨short, rfl⟩ | ⟨long, rfl⟩) total
    · exact .inl ⟨short, total⟩
    · exact .inr ⟨long, total⟩
  unfold websocketLengthTurn
  cases lenLeft with
  | nil =>
    -- the length is complete
    rw [length_nil, add_zero] at position
    rw [if_neg (by omega)]
    refine ⟨.refl bio, zero_le _, id, _, rfl, ?_⟩
    rw [unread, nil_append]
    apply WebsocketAhead.payload
    · simp only [masking, afterLength, Bool.false_eq_true, if_false]
    · simpa [beValue, leValue] using value
    · exact kind
    · exact fun isControl => (frame.control isControl).1
    · exact WebsocketFrame.collects ⟨idle.position, idle.capacity⟩
    · exact follows
  | cons _ _ =>
    have room : context.lengthAndMaskPosition < lenLength := by
      rw [length_cons] at position
      omega
    rw [if_pos room]
    apply headerTurn_keeps
    · rw [unread]
      exact .length (place st position) masking idle value kind follows
    intro _ _ read
    rw [unread, cons_append] at read
    obtain ⟨rfl, rfl⟩ := cons.inj read
    refine .length (place st ?_) masking ⟨idle.position, idle.capacity⟩
      (lengthByte_payloadLength value frame.fits.lt) kind follows
    rw [length_cons] at position
    unfold websocketLengthByte
    simp only
    omega

def WebsocketContext.leaves (context : WebsocketContext) (left : List UInt8) : WebsocketContext :=
  { context with
    payloadLength := left.length
    state := if left.length = 0 then .opcodeAndFin else context.state }

structure PayloadRead (read : WebsocketStatus) (bio : Source) (data left rest : List UInt8) : Prop where
  stored : read.data = data
  unread : read.bio.unread = left ++ rest
  status : read.status = data.length ∨ (data = [] ∧ read.status ≤ 0)
  progress : Progress bio read.bio

theorem PayloadRead.eq_nil {read : WebsocketStatus}
    (payload : PayloadRead read bio data left rest) (fail : read.status < 0) : data = [] := by
  obtain _ | ⟨none, -⟩ := payload.status
  · omega
  · exact none

theorem readData_left {left rest : List UInt8} (length : context.payloadLength = left.length)
    (unread : bio.unread = left ++ rest) (le : size ≤ INT32_MAX ∨ left.length ≤ INT32_MAX) :
    ∃ data left', left = data ++ left' ∧ data.length ≤ size ∧
      PayloadRead (websocketReadData bio size context) bio data left' rest ∧
      (websocketReadData bio size context).context = context.leaves left' ∧
      ((websocketReadData bio size context).status < 0 ∨ (0 < size ∧ 0 < left.length) →
        (websocketReadData bio size context).bio.events = bio.events.tail) := by
  unfold websocketReadData
  by_cases fin : context.payloadLength = 0
  · have none : left = [] := length_eq_zero_iff.mp (by omega)
    subst none
    rw [if_pos fin]
    refine ⟨[], [], rfl, zero_le _, ⟨rfl, unread, .inl rfl, .refl bio⟩, ?_, ?_⟩
    · unfold WebsocketContext.leaves
      simp only [length_nil, if_true, ← fin]
    rintro (neg | ⟨-, some⟩)
    · exact absurd neg (by simp)
    · exact absurd some (by simp)
  rw [if_neg fin]
  generalize chosen : (if context.payloadLength < size then context.payloadLength else size) = rlen
  have bounded : rlen ≤ left.length ∧ rlen ≤ size ∧ (0 < size → 0 < rlen) := by
    rw [← chosen]
    split <;> omega
  obtain ⟨inside, room, pos⟩ := bounded
  simp only [if_neg (by omega : ¬rlen > INT32_MAX)]
  have bs := bio.read_data rlen
  have short := bio.read_length_le rlen
  have progress := Progress.read bio rlen
  rw [unread] at bs
  obtain ⟨left', split⟩ : (bio.read rlen).data <+: left :=
    prefix_of_prefix_length_le ⟨_, bs.symm⟩ (prefix_append _ _) (le_trans short inside)
  have remains : (bio.read rlen).source.unread = left' ++ rest := by
    rw [← split, append_assoc] at bs
    exact (append_cancel_left bs).symm
  refine ⟨(bio.read rlen).data, left', split.symm, le_trans short room, ?_⟩
  have total : (bio.read rlen).data.length + left'.length = left.length := by
    rw [← length_append, split]
  obtain ⟨some, status⟩ | ⟨failed, none⟩ := bio.read_status rlen
  · simp only [if_neg (by omega :
      ¬((bio.read rlen).status ≤ 0 ∨ (bio.read rlen).status > (context.payloadLength : Int)))]
    have count : context.payloadLength - (bio.read rlen).status.toNat = left'.length := by omega
    rw [count]
    exact ⟨⟨rfl, remains, .inl status, progress⟩, rfl, fun _ => Source.read_events (by omega)⟩
  simp only [if_pos (Or.inl failed : (bio.read rlen).status ≤ 0 ∨ _)]
  have same : left' = left := by rw [← split, none, nil_append]
  subst same
  refine ⟨⟨rfl, remains, .inr ⟨none, failed⟩, progress⟩, ?_, ?_⟩
  · unfold WebsocketContext.leaves
    rw [if_neg (by omega), ← length]
  rintro (neg | ⟨some, -⟩)
  · apply Source.read_events
    -- a read of no bytes does not fail
    apply Nat.pos_of_ne_zero
    rintro zero
    rw [zero] at neg
    exact absurd neg (by simp [Source.read])
  · exact Source.read_events (pos some)

theorem ensureResponseCapacity_fits {position capacity : Nat} (room : position + size ≤ capacity)
    (lt : capacity < 2 ^ 64) : ensureResponseCapacity position capacity size = .ok capacity := by
  unfold ensureResponseCapacity
  rw [mod_eq_of_lt (lt_of_le_of_lt room lt), if_neg (not_lt.mpr room)]

theorem readWstream_left {left rest : List UInt8} (length : context.payloadLength = left.length)
    (unread : bio.unread = left ++ rest) (some : 0 < left.length)
    (collected : context.responsePosition + left.length ≤ 125)
    (capacity : context.responseCapacity = 1024) :
    ∃ read data left' position, websocketReadWstream bio context = .ok read ∧ left = data ++ left' ∧
      PayloadRead read bio data left' rest ∧
      read.context = { context.leaves left' with responsePosition := position } ∧
      position + left'.length ≤ 125 ∧ (0 < data.length → position ≠ 0) ∧
        read.bio.events = bio.events.tail := by
  have ensured :
      ensureResponseCapacity context.responsePosition context.responseCapacity context.payloadLength =
      .ok context.responseCapacity := by
    rw [capacity, length]
    exact ensureResponseCapacity_fits (by omega) (by decide)
  unfold websocketReadWstream
  rw [if_neg (by omega : ¬context.payloadLength = 0), ensured]
  simp only [ok_bind, if_neg (by omega : ¬context.responseCapacity - context.responsePosition = 0)]
  generalize rem : context.responseCapacity - context.responsePosition = remaining
  obtain ⟨data, left', split, -, payload, after, used⟩ :=
    @readData_left context bio remaining left rest length unread
      (.inr (le_trans (by omega) (by decide : 125 ≤ INT32_MAX)))
  have tail := used (.inr ⟨by omega, some⟩)
  have total : data.length + left'.length = left.length := by rw [split, length_append]
  by_cases fail : (websocketReadData bio remaining context).status < 0
  · simp only [if_pos fail]
    have none := payload.eq_nil fail
    refine ⟨_, data, left', context.responsePosition, rfl, split, payload, after, by omega, ?_, tail⟩
    intro put
    rw [none] at put
    exact absurd put (by simp)
  simp only [if_neg fail]
  refine ⟨_, data, left',
    context.responsePosition + (websocketReadData bio remaining context).status.toNat, rfl, split,
    ⟨payload.stored, payload.unread, payload.status, payload.progress⟩, ?_, ?_, ?_, tail⟩
  · rw [after]
    rfl
  · obtain _ | ⟨none, _⟩ := payload.status <;> omega
  intro put
  obtain _ | ⟨none, -⟩ := payload.status
  · omega
  rw [none] at put
  exact absurd put (by simp)

theorem contextWriteWstream_ok (context : WebsocketContext) (opcode : UInt8) :
    ∃ closeSent, websocketContextWriteWstream context true opcode =
    .ok { context with closeSent := closeSent } := by
  unfold websocketContextWriteWstream
  by_cases sent : context.closeSent = true
  · rw [if_pos sent]
    exact ⟨context.closeSent, rfl⟩
  rw [if_neg sent]
  exact ⟨_, rfl⟩

/-- What was collected is kept as long as bytes are missing. -/
theorem websocketReply_ok (pinged : context.payloadLength = 0 → context.responsePosition ≠ 0) :
    ∃ closeSent position, websocketReply context =
    .ok { context with closeSent := closeSent, responsePosition := position } ∧
      (position = 0 ∨ position = context.responsePosition ∧ context.payloadLength ≠ 0) := by
  unfold websocketReply
  by_cases ping : effectiveOpcode context = WebsocketPingOpcode
  · rw [if_pos ping]
    by_cases fin : context.payloadLength = 0
    · obtain ⟨closeSent, sent⟩ := contextWriteWstream_ok context WebsocketPongOpcode
      rw [if_pos fin, websocketReplyPong, if_pos (pinged fin), sent]
      exact ⟨closeSent, 0, rfl, .inl rfl⟩
    rw [if_neg fin]
    exact ⟨_, _, rfl, .inr ⟨rfl, fin⟩⟩
  rw [if_neg ping]
  by_cases close : effectiveOpcode context = WebsocketCloseOpcode
  · rw [if_pos close]
    by_cases fin : context.payloadLength = 0
    · obtain ⟨closeSent, sent⟩ := contextWriteWstream_ok context WebsocketCloseOpcode
      rw [if_pos fin, websocketReplyClose, sent]
      exact ⟨true, 0, rfl, .inl rfl⟩
    rw [if_neg fin]
    exact ⟨_, _, rfl, .inr ⟨rfl, fin⟩⟩
  · rw [if_neg close]
    exact ⟨_, _, rfl, .inl rfl⟩

theorem WebsocketContext.leaves_ahead {kind : WebsocketKind} (st : context.state = .payload)
    (effective : effectiveOpcode context = kind.effective)
    (follows : Follows context.fragmentOriginalOpcode frames)
    (capacity : context.responseCapacity = 1024) (closeSent : Bool) {position : Nat}
    (control : kind.isControl = true → position + left.length ≤ 125)
    (binary : kind.isControl = false → position = 0)
    (fin : left.length = 0 → position = 0) :
    WebsocketAhead { context.leaves left with closeSent := closeSent, responsePosition := position }
      (left ++ framesBytes frames) (kind.data left ++ framesData frames) := by
  cases left with
  | nil =>
    rw [WebsocketKind.data_nil, nil_append, nil_append]
    exact .opcodeAndFin rfl ⟨fin rfl, capacity⟩ follows
  | cons _ left =>
    refine .payload ?_ rfl effective (fun _ => succ_pos _) ⟨control, binary, capacity⟩ follows
    exact st

section Payload
variable {ctx : WebsocketContext} {bio : Source} {size : Nat} {kind : WebsocketKind} {left : List UInt8}
  {frames : List WebsocketFrame}

theorem payloadTurn_binary (st : ctx.state = .payload) (length : ctx.payloadLength = left.length)
    (effective : effectiveOpcode ctx = kind.effective) (binary : kind.isControl = false)
    (collects : ctx.Collects kind left) (follows : Follows ctx.fragmentOriginalOpcode frames)
    (unread : bio.unread = left ++ framesBytes frames) (le : size ≤ INT32_MAX) :
    (websocketPayloadTurn ctx bio size).Keeps bio size (kind.data left ++ framesData frames) := by
  have opcode : effectiveOpcode ctx = WebsocketBinaryOpcode := by
    rw [effective]
    cases kind with
    | binary => rfl
    | continuation => rfl
    | ping => cases binary
    | pong => cases binary
  have plain : ∀ bytes, kind.data bytes = bytes := by
    intro bytes
    rw [WebsocketKind.data, binary]
    rfl
  obtain ⟨data, left', split, room, payload, after, used⟩ :=
    @readData_left ctx bio size left (framesBytes frames) length unread (.inl le)
  have ahead : WebsocketAhead (websocketReadData bio size ctx).context
      (websocketReadData bio size ctx).bio.unread (left' ++ framesData frames) := by
    have control : kind.isControl = true → ctx.responsePosition + left'.length ≤ 125 := by
      rw [binary]
      exact fun no => Bool.noConfusion no
    have placed :=
      WebsocketContext.leaves_ahead st effective follows collects.capacity ctx.closeSent control collects.binary
      (fun _ => collects.binary binary)
    rw [plain] at placed
    rw [after, payload.unread]
    exact placed
  unfold websocketPayloadTurn websocketHandlePayload
  rw [if_pos opcode, plain, split, append_assoc]
  simp only
  by_cases fail : (websocketReadData bio size ctx).status < 0
  · rw [if_pos fail, payload.eq_nil fail, nil_append]
    exact ⟨payload.progress, by omega, used (.inl fail), ahead⟩
  rw [if_neg fail, payload.stored]
  by_cases full : (websocketReadData bio size ctx).status ≥ size
  · rw [if_pos full]
    refine ⟨payload.progress, room, ?_, _, rfl, ahead⟩
    intro some
    -- a full buffer has been read from the transport
    apply used
    obtain count | ⟨none, _⟩ := payload.status
    · refine .inr ⟨some, ?_⟩
      rw [split, length_append]
      omega
    · omega
  rw [if_neg full]
  refine ⟨payload.progress, room, ?_, _, rfl, ahead⟩
  intro some
  obtain count | ⟨none, -⟩ := payload.status
  · omega
  rw [none]
  exact some

theorem payloadTurn_control (st : ctx.state = .payload) (length : ctx.payloadLength = left.length)
    (effective : effectiveOpcode ctx = kind.effective) (isControl : kind.isControl = true)
    (some : 0 < left.length) (collects : ctx.Collects kind left)
    (follows : Follows ctx.fragmentOriginalOpcode frames)
    (unread : bio.unread = left ++ framesBytes frames) :
    (websocketPayloadTurn ctx bio size).Keeps bio size (kind.data left ++ framesData frames) := by
  have opcode : effectiveOpcode ctx ≠ WebsocketBinaryOpcode := by
    rw [effective]
    cases kind with
    | binary | continuation => cases isControl
    | ping => decide
    | pong => decide
  have no : ∀ bs, kind.data bs = [] := by
    intro bs
    rw [WebsocketKind.data, isControl]
    rfl
  obtain ⟨read, data, left', position, res, split, payload, after, collected, replies, used⟩ :=
    @readWstream_left ctx bio left
      (framesBytes frames) length unread some (collects.control isControl) collects.capacity
  have ahead :
    ∀ closeSent position', position' ≤ position → (left'.length = 0 → position' = 0) → WebsocketAhead
      { ctx.leaves left' with closeSent := closeSent, responsePosition := position' }
      read.bio.unread (framesData frames) := by
    intro closeSent position' le fin
    have binary : kind.isControl = false → position' = 0 := by
      rw [isControl]
      exact fun no => Bool.noConfusion no
    have placed :=
      WebsocketContext.leaves_ahead st effective follows collects.capacity closeSent (fun _ => by omega) binary fin
    rw [no, nil_append] at placed
    rw [payload.unread]
    exact placed
  unfold websocketPayloadTurn websocketHandlePayload
  rw [if_neg opcode, no, nil_append, res, ok_bind]
  by_cases fail : read.status < 0
  · simp only [if_pos fail]
    have left : left'.length ≠ 0 := by
      rw [split, payload.eq_nil fail, nil_append] at some
      omega
    rw [after]
    exact ⟨payload.progress,
      by omega, used, ahead ctx.closeSent position le_rfl (fun fin => absurd fin left)⟩
  simp only [if_neg fail]
  have pinged : read.context.payloadLength = 0 → read.context.responsePosition ≠ 0 := by
    rw [after]
    intro fin
    have fin : left'.length = 0 := fin
    apply replies
    rw [split, length_append] at some
    omega
  obtain ⟨closeSent, pos', reply, kept⟩ := websocketReply_ok pinged
  have ahead' : WebsocketAhead { ctx.leaves left' with closeSent := closeSent, responsePosition := pos' }
      read.bio.unread (framesData frames) := by
    rw [after] at kept
    obtain zero | ⟨same, more⟩ := kept
    · exact ahead closeSent pos' (by omega) (fun _ => zero)
    · exact ahead closeSent pos' (le_of_eq same) (fun fin => absurd fin more)
  rw [reply, after]
  change WebsocketTurn.Keeps (if (0 : Int) < 0 then _ else if (0 : Int) ≥ size then _ else _) _ _ _
  by_cases full : (0 : Int) ≥ size
  · rw [if_pos full]
    exact ⟨payload.progress, zero_le _, fun room => by omega, _, rfl, ahead'⟩
  rw [if_neg full]
  exact ⟨payload.progress, zero_le _, fun room => room, _, rfl, ahead'⟩

end Payload

theorem websocketTurn_keeps (ahead : WebsocketAhead context bio.unread pending) (le : size ≤ INT32_MAX) :
    (websocketTurn context bio size).Keeps bio size pending := by
  unfold websocketTurn
  have pre := ahead
  generalize bs : bio.unread = unread at ahead
  cases ahead with
  | @opcodeAndFin frames st idle follows =>
    rw [st]
    apply headerTurn_keeps pre
    intro byte rest read
    rw [bs] at read
    cases frames with
    | nil => cases read
    | cons _ frames =>
      rw [framesBytes_cons] at read
      obtain ⟨rfl, rfl⟩ := cons.inj read
      obtain ⟨kind, follows⟩ := opcodeAndFin_follows follows
      exact .lengthAndMasking rfl ⟨idle.position, idle.capacity⟩ kind follows
  | lengthAndMasking st idle kind follows =>
    rw [st]
    apply headerTurn_keeps pre
    intro byte rest read
    obtain ⟨_, _, same, after⟩ := lengthAndMasking_ahead idle kind follows
    rw [bs, same] at read
    obtain ⟨rfl, rfl⟩ := cons.inj read
    exact after
  | length st masking idle value kind follows =>
    obtain ⟨short, position⟩ | ⟨long, position⟩ := st
    · rw [short]
      exact lengthTurn_keeps (.inl ⟨short, rfl⟩) position masking idle value kind follows bs
    rw [long]
    exact lengthTurn_keeps (.inr ⟨long, rfl⟩) position masking idle value kind follows bs
  | @payload frames kind left st length effective control collects follows =>
    rw [st]
    cases isControl : kind.isControl with
    | false => exact payloadTurn_binary st length effective isControl collects follows bs le
    | true =>
        exact payloadTurn_control st length effective isControl (control isControl) collects follows bs

/-! ## Whole runs -/

structure WebsocketRead.Keeps (read : WebsocketRead) (bio : Source) (size : Nat)
    (more pending : List UInt8) : Prop where
  progress : Progress bio read.bio
  used : 0 < size → read.bio.events.length ≤ bio.events.length - 1
  ahead : ∃ later, pending = more ++ later ∧ WebsocketAhead read.context read.bio.unread later

theorem websocketReturn_ok (fits : data.length ≤ INT32_MAX) (context : WebsocketContext)
    (bio : Source) : websocketReturn data context bio = .ok ⟨data.length, data, context, bio⟩ :=
  if_neg (not_lt.mpr fits)

theorem take_length_toNat (data : List UInt8) : data.take (data.length : Int).toNat = data := by
  rw [Int.toNat_natCast, take_length]

/-- A call returns a part of the pending payload and leaves the rest pending. -/
theorem websocketLoop_keeps (ahead : WebsocketAhead context bio.unread pending)
    (le : data.length + size ≤ INT32_MAX) :
    ∃ read more, websocketLoop context bio size data = .ok read ∧
      read.data.take read.status.toNat = data ++ more ∧ read.Keeps bio size more pending := by
  -- by the turns that are left
  induction measure :
    websocketMeasure context bio using Nat.strongRecOn generalizing context bio size data pending with
  | _ n ih =>
    have keeps := websocketTurn_keeps ahead (by omega : size ≤ INT32_MAX)
    rw [websocketLoop]
    split
    · next ctx' bio' put turn =>
      rw [turn] at keeps
      obtain ⟨progress, room, stays, later, rfl, next⟩ := keeps
      have less : websocketMeasure ctx' bio' < n := measure ▸ websocketTurn_measure turn
      have total : (data ++ put).length + (size - put.length) ≤ INT32_MAX := by
        rw [length_append]
        omega
      obtain ⟨read, more, done, taken, kept⟩ := ih _ less next total rfl
      obtain ⟨rest, split, following⟩ := kept.ahead
      refine ⟨read, put ++ more, done, ?_, progress.trans kept.progress, ?_, rest, ?_, following⟩
      · rw [taken, append_assoc]
      · intro some
        have := kept.used (by have := stays some; omega)
        have := progress.events
        omega
      · rw [split, append_assoc]
    · next ctx' bio' _ turn =>
      rw [turn] at keeps
      obtain ⟨progress, _, used, next⟩ := keeps
      have one : bio'.events.length ≤ bio.events.length - 1 := le_of_eq (by rw [used, length_tail])
      by_cases put : data.length > 0
      · rw [if_pos put, websocketReturn_ok (by omega)]
        refine ⟨_, [], rfl, ?_, progress, fun _ => one, pending, rfl, next⟩
        rw [append_nil]
        exact take_length_toNat data
      rw [if_neg put]
      have none : data = [] := length_eq_zero_iff.mp (by omega)
      refine ⟨_, [], rfl, ?_, progress, fun _ => one, pending, rfl, next⟩
      rw [none, append_nil]
      exact take_nil
    · next ctx' bio' put turn =>
      rw [turn] at keeps
      obtain ⟨progress, room, used, later, rfl, next⟩ := keeps
      have fits : (data ++ put).length ≤ INT32_MAX := by
        rw [length_append]
        omega
      rw [websocketReturn_ok fits]
      refine ⟨_, put, rfl, ?_, progress, fun some => ?_, later, rfl, next⟩
      · exact take_length_toNat (data ++ put)
      · exact le_of_eq (by rw [used some, length_tail])
    iterate 2
      · next turn =>
        rw [turn] at keeps
        exact keeps.elim

theorem contextReads_keeps {sizes : List Nat} {pending : List UInt8}
    (ahead : WebsocketAhead context bio.unread pending) (le : ∀ size ∈ sizes, size ≤ INT32_MAX) :
    ∃ data ctx' bio' later, websocketContextReads context bio sizes = .ok (data, ctx', bio') ∧
      pending = data ++ later ∧ WebsocketAhead ctx' bio'.unread later ∧ Progress bio bio' ∧
      bio'.events.length ≤ bio.events.length - sizes.countP (0 < ·) := by
  induction sizes generalizing context bio pending with
  | nil => exact ⟨[], context, bio, pending, rfl, rfl, ahead, .refl bio, le_rfl⟩
  | cons size sizes ih =>
    have fits : ([] : List UInt8).length + size ≤ INT32_MAX := by
      rw [length_nil, zero_add]
      exact le size mem_cons_self
    obtain ⟨_, more, done, taken, kept⟩ := websocketLoop_keeps ahead fits
    obtain ⟨_, rfl, next⟩ := kept.ahead
    obtain ⟨data, ctx', bio', later, rest, rfl, after, progress, used⟩ :=
      ih next fun size mem => le size (mem_cons_of_mem _ mem)
    refine ⟨more ++ data, ctx', bio', later, ?_, ?_, after, kept.progress.trans progress, ?_⟩
    · rw [websocketContextReads, websocketContextRead, done]
      simp only [bind, Except.bind, rest, taken, nil_append]
    · rw [append_assoc]
    have events := kept.progress.events
    rw [countP_cons]
    split
    · next some =>
      have one := kept.used (by simpa using some)
      omega
    · omega

/-- The calls return the binary payloads in order; and all of them, if the transport and the caller
go on for long enough. -/
theorem websocket_reads_payloads {frames : List WebsocketFrame} (fragmented : Fragmented false frames)
    (events : List SourceEvent) {sizes : List Nat} (small : ∀ size ∈ sizes, size ≤ INT32_MAX) :
    ∃ data context bio, websocketContextReads websocketContextNew ⟨framesBytes frames, events⟩ sizes =
        .ok (data, context, bio) ∧
      data <+: framesData frames ∧ (bio.unread = [] → data = framesData frames) ∧
      (Source.Enough ⟨framesBytes frames, events⟩ → events.length ≤ sizes.countP (0 < ·) →
        data = framesData frames) := by
  have st : WebsocketAhead websocketContextNew (framesBytes frames) (framesData frames) :=
    .opcodeAndFin rfl ⟨rfl, rfl⟩ ⟨false, fragmented, fun started => Bool.noConfusion started⟩
  obtain ⟨data, context, bio, later, done, split, ahead, progress, used⟩ :=
    @contextReads_keeps websocketContextNew ⟨framesBytes frames, events⟩ sizes _ st small
  have complete : bio.unread = [] → data = framesData frames := by
    intro fin
    rw [split, ahead.pending_eq_nil fin, List.append_nil]
  refine ⟨data, context, bio, done, ⟨later, split.symm⟩, complete, ?_⟩
  intro room _
  apply complete
  apply (progress.enough room).unread_eq_nil
  apply List.length_eq_zero_iff.mp
  have used : bio.events.length ≤ events.length - sizes.countP (0 < ·) := used
  omega

def pingedMessage : List WebsocketFrame :=
  [⟨.binary, false, .direct, [1, 2], by decide, by decide⟩,
    ⟨.ping, true, .direct, [9], by decide, by decide⟩,
    ⟨.continuation, true, .short, [3], by decide, by decide⟩]

/-- A ping between two fragments does not disturb the message. -/
theorem websocket_reads_payloads_pinged : ∃ data context bio, websocketContextReads websocketContextNew
        ⟨framesBytes pingedMessage,
          .blocked ⟨-1, by decide⟩ :: List.replicate 12 (.ready ⟨1, by decide⟩)⟩
        (List.replicate 13 1) = .ok (data, context, bio) ∧ data = [1, 2, 3] := by
  obtain ⟨data, context, bio, done, -, -, complete⟩ :=
    @websocket_reads_payloads pingedMessage ⟨rfl, rfl, trivial⟩
    (.blocked ⟨-1, by decide⟩ :: List.replicate 12 (.ready ⟨1, by decide⟩))
      (List.replicate 13 1) (by decide)
  exact ⟨data, context, bio, done, complete (by unfold Source.Enough; decide) (by decide)⟩

/-! ## Buffers no status can count -/

theorem websocketLoop_again {ctx' : WebsocketContext} {bio' : Source}
    (turn : websocketTurn context bio size = .again ctx' bio' []) (data : List UInt8) :
    websocketLoop context bio size data = websocketLoop ctx' bio' size data := by
  rw [websocketLoop]
  split
  · next next =>
    rw [turn] at next
    cases next
    rw [append_nil, length_nil, Nat.sub_zero]
  all_goals next next =>
      rw [turn] at next
      cases next

theorem contextRead_stuck (st : context.state = .payload)
    (binary : effectiveOpcode context = WebsocketBinaryOpcode) (long : INT32_MAX < context.payloadLength)
    (big : INT32_MAX < size) (bio : Source) :
    websocketContextRead context bio size = .ok ⟨-1, [], context, bio⟩ := by
  have rejected : websocketReadData bio size context = ⟨-1, [], context, bio⟩ := by
    rw [websocketReadData, if_neg (by omega)]
    rw [if_pos (by split <;> omega)]
  have stuck : websocketTurn context bio size = .failed context bio (-1) := by
    rw [websocketTurn, st]
    simp only [websocketPayloadTurn, websocketHandlePayload, if_pos binary, rejected]
    rfl
  rw [websocketContextRead, websocketLoop]
  split
  case h_2 ctx' bio' status turn =>
    rw [stuck] at turn
    cases turn
    rfl
  all_goals
    rename_i turn
    rw [stuck] at turn
    cases turn

theorem contextReads_stuck (st : context.state = .payload)
    (binary : effectiveOpcode context = WebsocketBinaryOpcode) (long : INT32_MAX < context.payloadLength)
    (big : INT32_MAX < size) (bio : Source) (n : Nat) :
    websocketContextReads context bio (replicate n size) = .ok ([], context, bio) := by
  induction n with
  | zero => rfl
  | succ n ih =>
    rw [replicate_succ, websocketContextReads, contextRead_stuck st binary long big]
    simp only [bind, Except.bind, ih]
    rfl

def longFrame (payload : List UInt8) (fits : payload.length < 2 ^ 64) : WebsocketFrame where
  kind := .binary
  fin := true
  form := .long
  payload := payload
  fits := fits
  control := by
    intro control
    cases control

theorem websocketLoop_byte
    (header : ∀ bio, websocketTurn context bio size = websocketHeaderTurn context bio next) (byte : UInt8)
    (rest : List UInt8) (events : List SourceEvent) :
    websocketLoop context ⟨byte :: rest, .ready ⟨1, by decide⟩ :: events⟩ size [] =
      websocketLoop (next byte) ⟨rest, events⟩ size [] :=
  websocketLoop_again (header _) []

theorem websocketLoop_length {bs : List UInt8} (st : context.state = .longLength)
    (room : context.lengthAndMaskPosition + bs.length ≤ 8) (rest : List UInt8)
    (events : List SourceEvent) (size : Nat) :
    websocketLoop context ⟨bs ++ rest, replicate bs.length (.ready ⟨1, by decide⟩) ++ events⟩ size [] =
      websocketLoop (bs.foldl websocketLengthByte context) ⟨rest, events⟩ size [] := by
  induction bs generalizing context with
  | nil => rfl
  | cons byte bs ih =>
    rw [length_cons] at room
    have header : ∀ bio, websocketTurn context bio size =
        websocketHeaderTurn context bio (websocketLengthByte context) := by
      intro bio
      rw [websocketTurn, st]
      exact if_pos (by omega)
    rw [length_cons, replicate_succ, cons_append, cons_append, websocketLoop_byte header, foldl_cons]
    refine @ih (websocketLengthByte context byte) st ?_
    unfold websocketLengthByte
    simp only
    omega

def hugeContext : WebsocketContext :=
  { websocketContextNew with
    payloadLength := 2 ^ 31
    opcode := 0x82
    fragmentOriginalOpcode := 0x82
    lengthAndMaskPosition := 8
    state := .payload }

theorem websocketLoop_hugeContext (size : Nat) :
    websocketLoop websocketContextNew ⟨0x82 :: 0x7f :: (beBytes 8 (2 ^ 31) ++ payload),
      .ready ⟨1, by decide⟩ :: .ready ⟨1, by decide⟩ ::
      (replicate 8 (.ready ⟨1, by decide⟩) ++ events)⟩ size [] =
    websocketLoop hugeContext ⟨payload, events⟩ size [] := by
  rw [websocketLoop_byte (fun _ => rfl), websocketLoop_byte (fun _ => rfl)]
  refine (@websocketLoop_length _ (beBytes 8 (2 ^ 31)) rfl (by decide) payload events size).trans ?_
  exact websocketLoop_again rfl []

theorem contextReads_hugeContext (n : Nat) :
    websocketContextReads websocketContextNew ⟨0x82 :: 0x7f :: (beBytes 8 (2 ^ 31) ++ payload),
      .ready ⟨1, by decide⟩ :: .ready ⟨1, by decide⟩ :: (replicate 8 (.ready ⟨1, by decide⟩) ++ events)⟩
      (2 ^ 31 :: replicate n (2 ^ 31)) = .ok ([], hugeContext, ⟨payload, events⟩) := by
  have big : INT32_MAX < 2 ^ 31 := by decide
  have stuck := @contextReads_stuck hugeContext (2 ^ 31) rfl rfl big big ⟨payload, events⟩ n
  have fst := @contextRead_stuck hugeContext (2 ^ 31) rfl rfl big big ⟨payload, events⟩
  rw [websocketContextRead] at fst
  rw [websocketContextReads, websocketContextRead, websocketLoop_hugeContext, fst]
  simp only [bind, Except.bind, stuck]
  rfl

theorem contextReads_longFrame {payload : List UInt8} (fits : payload.length < 2 ^ 64)
    (length : payload.length = 2 ^ 31) :
    ∃ events sizes context bio, Source.Enough ⟨framesBytes [longFrame payload fits], events⟩ ∧
      events.length ≤ sizes.countP (0 < ·) ∧
      websocketContextReads websocketContextNew ⟨framesBytes [longFrame payload fits], events⟩ sizes =
        .ok ([], context, bio) ∧ framesData [longFrame payload fits] ≠ [] := by
  have bs : framesBytes [longFrame payload fits] = 0x82 :: 0x7f :: (beBytes 8 (2 ^ 31) ++ payload) := by
    have fst : (longFrame payload fits).firstByte = 0x82 :=
      (by decide : WEBSOCKET_FIN_BIT ||| WebsocketBinaryOpcode = 0x82)
    rw [framesBytes_cons, show framesBytes [] = [] from rfl, append_nil, ← length, fst]
    rfl
  have data : framesData [longFrame payload fits] = payload := by
    rw [framesData, flatMap_singleton]
    rfl
  rw [bs, data]
  refine ⟨_, _, _, _, ?_, ?_, contextReads_hugeContext payload
    (replicate payload.length (.ready ⟨1, by decide⟩)) (payload.length + 9), ?_⟩
  · rw [Source.Enough, Source.readies]
    simp only [length_cons, length_append, beBytes_length, countP_cons, countP_append,
      countP_replicate, if_true]
    omega
  · simp only [length_cons, length_append, length_replicate, countP_cons, countP_replicate]
    rw [if_pos (by decide), if_pos (by decide)]
    omega
  apply ne_nil_of_length_pos
  omega

/-- A payload of 2^31 bytes is not read: its length does not fit an int. -/
theorem websocket_payload_not_read :
    ∃ frame events sizes context bio, Fragmented false [frame] ∧
    Source.Enough ⟨framesBytes [frame], events⟩ ∧ events.length ≤ sizes.countP (0 < ·) ∧
      websocketContextReads websocketContextNew ⟨framesBytes [frame], events⟩ sizes =
      .ok ([], context, bio) ∧ framesData [frame] ≠ [] := by
  obtain ⟨payload, length⟩ : ∃ payload : List UInt8, payload.length = 2 ^ 31 :=
    ⟨List.replicate (2 ^ 31) 0, List.length_replicate⟩
  have fits : payload.length < 2 ^ 64 := by
    rw [length]
    decide
  obtain ⟨events, sizes, context, bio, rest⟩ := contextReads_longFrame fits length
  exact ⟨longFrame payload fits, events, sizes, context, bio, ⟨rfl, trivial⟩, rest⟩

end KvmServer.Core
