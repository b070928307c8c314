import KvmServer.Core.Websocket

/-! # Writing to a WebSocket (`core/gateway/websocket.c`)

A payload becomes a masked frame, which the transport takes in parts.  The host is little-endian. -/

namespace KvmServer.Core
open Lib List

/-! ## Frames -/

def websocketFullLen (len : Nat) : Nat :=
    if len < 126 then len + 6 else if len < 0x10000 then len + 8 else len + 14

def websocketLengthBytes (len : Nat) : List UInt8 :=
  if len < 126 then [UInt8.ofNat len ||| WEBSOCKET_MASK_BIT]
  else if len < 0x10000 then (126 ||| WEBSOCKET_MASK_BIT) :: beBytes 2 len
  else (127 ||| WEBSOCKET_MASK_BIT) :: (beBytes 4 0 ++ beBytes 4 len)

/-- What is in the stream; `maskingKey` comes from `winpr_RAND`. -/
def websocketContextPacketNew (len : Nat) (opcode : UInt8) (maskingKey : UInt32) : Option (List UInt8) :=
  if len > INT32_MAX then none
  else some ((WEBSOCKET_FIN_BIT ||| opcode) :: (websocketLengthBytes len ++ leBytes 4 maskingKey.toNat))

def maskBytes (maskingKey : UInt32) : Nat → List UInt8 → List UInt8
  | _, [] => []
  | streamPos, data :: rest =>
    (data ^^^ (leBytes 4 maskingKey.toNat).getD (streamPos % 4) 0) :: maskBytes maskingKey
      (streamPos + 1) rest

def maskWords (maskingKey : UInt32) : Nat → List UInt8 → List UInt8
  | streamPos, data₀ :: data₁ :: data₂ :: data₃ :: rest =>
    leBytes 4 (leValue [data₀, data₁, data₂, data₃] ^^^ maskingKey.toNat) ++
      maskWords maskingKey (streamPos + 4) rest
  | streamPos, rest => maskBytes maskingKey streamPos rest

/-- The frame of `websocket_context_write_wstream`, as `websocket_context_mask_and_send` completes it. -/
def websocketFrame (opcode : UInt8) (maskingKey : UInt32) (payload : List UInt8) : Option (List UInt8) :=
  (websocketContextPacketNew payload.length opcode maskingKey).map (· ++ maskWords maskingKey 0 payload)

/-- What `BIO_write` does: take at least one byte, ask to be called again, or end the writing with a
status. -/
inductive BioWrite where
  | takes (more : Nat)
  | retry
  | ends (readBlocked : Bool)

/-- The loop of `websocket_write_all`: what it hands over, and what it has returned. -/
def websocketWriteLoop (length : Nat) : List UInt8 → List BioWrite → List UInt8 × Option Int
  | [], _ => ([], some length)
  | _, [] => ([], none)
  | data, .takes more :: writes =>
    let (handed, status) := websocketWriteLoop length (data.drop (more + 1)) writes
    (data.take (more + 1) ++ handed, status)
  | data, .retry :: writes => websocketWriteLoop length data writes
  | _, .ends readBlocked :: _ => ([], some (if readBlocked then -2 else -1))

def websocketWriteAll (data : List UInt8) (writes : List BioWrite) : List UInt8 × Option Int :=
  if data.length > INT32_MAX then ([], some (-1)) else websocketWriteLoop data.length data writes

/-! ## Masking -/

variable {maskingKey : UInt32} {payload data : List UInt8} {streamPos len : Nat}

theorem leBytes_xor (n x y : Nat) :
    leBytes n (x ^^^ y) = zipWith (· ^^^ ·) (leBytes n x) (leBytes n y) := by
  induction n generalizing x y with
  | zero => rfl
  | succ n ih =>
      rw [leBytes, leBytes, leBytes, zipWith_cons_cons, Nat.xor_div_two_pow, ih, UInt8.ofNat_xor]

theorem maskWords_eq (aligned : streamPos % 4 = 0) :
    maskWords maskingKey streamPos data = maskBytes maskingKey streamPos data := by
  fun_induction maskWords maskingKey streamPos data with
  | case1 streamPos data₀ data₁ data₂ data₃ rest ih =>
    have word : leBytes 4 (leValue [data₀, data₁, data₂, data₃]) = [data₀, data₁, data₂, data₃] :=
      leBytes_leValue [data₀, data₁, data₂, data₃]
    -- a word begins where the key does, so that its four bytes meet those of the key in order
    rw [leBytes_xor, word, ih (by omega)]
    simp [maskBytes, leBytes, Nat.add_mod, aligned]
  | case2 => rfl

theorem maskBytes_length : (maskBytes maskingKey streamPos data).length = data.length := by
  induction data generalizing streamPos with
  | nil => rfl
  | cons _ data ih => rw [maskBytes, length_cons, length_cons, ih]

theorem maskBytes_maskBytes :
    maskBytes maskingKey streamPos (maskBytes maskingKey streamPos data) = data := by
  induction data generalizing streamPos with
  | nil => rfl
  | cons _ data ih => rw [maskBytes, maskBytes, ih, UInt8.xor_assoc, UInt8.xor_self, UInt8.xor_zero]

/-! ## Headers -/

def announcedLength : List UInt8 → Nat × List UInt8
  | [] => (0, [])
  | byte :: bytes =>
    if byte &&& 0x7F = 126 then (beValue (bytes.take 2), bytes.drop 2)
    else if byte &&& 0x7F = 127 then (beValue (bytes.take 8), bytes.drop 8)
    else ((byte &&& 0x7F).toNat, bytes)

theorem announcedLength_eq (le : len ≤ INT32_MAX) (rest : List UInt8) :
    announcedLength (websocketLengthBytes len ++ rest) = (len, rest) := by
  have most : INT32_MAX < 2 ^ (8 * 4) := by decide
  unfold websocketLengthBytes
  split
  next short =>
    -- seven bits hold the length, which is neither of the two marks
    have byte : ∀ n : Fin 126, (UInt8.ofNat n ||| WEBSOCKET_MASK_BIT) &&& 0x7F ≠ 126 ∧
        (UInt8.ofNat n ||| WEBSOCKET_MASK_BIT) &&& 0x7F ≠ 127 ∧
        ((UInt8.ofNat n ||| WEBSOCKET_MASK_BIT) &&& 0x7F).toNat = n := by decide
    obtain ⟨not126, not127, value⟩ := byte ⟨len, short⟩
    rw [singleton_append, announcedLength, if_neg not126, if_neg not127, value]
  split
  next =>
    rw [cons_append, announcedLength, if_pos (by decide), take_left' (beBytes_length ..),
      drop_left' (beBytes_length ..), beValue_beBytes, Nat.mod_eq_of_lt (by omega)]
  next =>
    have eight : (beBytes 4 0 ++ beBytes 4 len).length = 8 :=
      by rw [length_append, beBytes_length, beBytes_length]
    have value : beValue (beBytes 4 0 ++ beBytes 4 len) = len := by
      have all := beValue_beBytes 4 len
      rw [Nat.mod_eq_of_lt (by omega)] at all
      simpa [beBytes, leBytes, beValue_cons] using all
    rw [cons_append, announcedLength, if_neg (by decide), if_pos (by decide),
      take_left' eight, drop_left' eight, value]

structure FrameCarries (frame : List UInt8) (opcode : UInt8) (maskingKey : UInt32)
    (payload : List UInt8) : Prop where
  fits : frame.length = websocketFullLen payload.length
  carries : ∃ header body, frame = (WEBSOCKET_FIN_BIT ||| opcode) :: header ∧
    announcedLength header = (payload.length, leBytes 4 maskingKey.toNat ++ body) ∧
      maskBytes maskingKey 0 body = payload

theorem websocketFrame_carries (opcode : UInt8) (maskingKey : UInt32) (le : payload.length ≤ INT32_MAX) :
    ∃ frame, websocketFrame opcode maskingKey payload = some frame ∧
    FrameCarries frame opcode maskingKey payload := by
  rw [websocketFrame, websocketContextPacketNew, if_neg (by omega), maskWords_eq rfl]
  refine ⟨_, rfl, ?_, _, maskBytes maskingKey 0 payload, rfl, ?_, maskBytes_maskBytes⟩
  · simp only [websocketLengthBytes, websocketFullLen]
    grind [maskBytes_length, beBytes_length, leBytes_length]
  change announcedLength (_ ++ _ ++ _) = _
  rw [append_assoc]
  exact announcedLength_eq le _

/-! ## Partial writes -/

def bytesTaken : List BioWrite → Nat
  | .takes more :: writes => more + 1 + bytesTaken writes
  | .retry :: writes => bytesTaken writes
  | _ => 0

theorem websocketWriteLoop_eq (length : Nat) (data : List UInt8) (writes : List BioWrite) :
    (websocketWriteLoop length data writes).1 = data.take (bytesTaken writes) ∧
      ((websocketWriteLoop length data writes).2 = some (length : Int) ↔
        data.length ≤ bytesTaken writes) := by
  -- along the loop of the source; `data` is what is left of the frame
  fun_induction websocketWriteLoop length data writes with
  | case1 => simp
  | case2 data some => simp_all [bytesTaken]
  | case3 data more writes some handed status same ih =>
    rw [same, length_drop] at ih
    obtain ⟨rfl, returned⟩ := ih
    rw [bytesTaken]
    exact ⟨take_add.symm, returned.trans (by omega)⟩
  | case4 data some writes ih => exact ih
  | case5 data readBlocked writes some => cases readBlocked <;> simp_all [bytesTaken]

/-- The bytes are handed over in order, as many as the transport takes, and all of them if their
number is returned. -/
structure HandsOver (data : List UInt8) (writes : List BioWrite) : Prop where
  handed : (websocketWriteAll data writes).1 = data.take (bytesTaken writes)
  returned :
    (websocketWriteAll data writes).2 = some (data.length : Int) ↔ data.length ≤ bytesTaken writes

/-- A payload of any length that `websocket_write_all` takes with its header is sent in a frame that
carries it. -/
theorem websocket_frame_sent (opcode : UInt8) (maskingKey : UInt32) (payload : List UInt8)
    (writes : List BioWrite) (small : payload.length ≤ INT32_MAX) : ∃ frame,
    websocketFrame opcode maskingKey payload = some frame ∧
      FrameCarries frame opcode maskingKey payload ∧
      (payload.length + 14 ≤ INT32_MAX → HandsOver frame writes) := by
  obtain ⟨frame, framed, carry⟩ := websocketFrame_carries opcode maskingKey small
  have most : frame.length ≤ payload.length + 14 := by
    have fits := carry.fits
    grind [websocketFullLen]
  refine ⟨frame, framed, carry, fun short => ?_⟩
  have all : websocketWriteAll frame writes = websocketWriteLoop frame.length frame writes :=
    if_neg (by omega)
  constructor
  · rw [all, (websocketWriteLoop_eq frame.length frame writes).1]
  · rw [all, (websocketWriteLoop_eq frame.length frame writes).2]

/-- A frame taken in two parts, with a retry between them, is handed over whole. -/
theorem websocket_frame_sent_partly : ∃ frame,
    websocketFrame 0x2 0x01020304 [0x61, 0x62, 0x63, 0x64, 0x65] = some frame ∧
    FrameCarries frame 0x2 0x01020304 [0x61, 0x62, 0x63, 0x64, 0x65] ∧
    HandsOver frame [.takes 2, .retry, .takes 7] := by
  obtain ⟨frame, framed, carries, hands⟩ :=
    websocket_frame_sent 0x2 0x01020304 [0x61, 0x62, 0x63, 0x64, 0x65]
    [.takes 2, .retry, .takes 7] (by decide)
  exact ⟨frame, framed, carries, hands (by decide)⟩

/-- A frame that is one byte too long is refused. -/
theorem websocket_frame_not_sent : ∃ frame,
    websocketFrame 0x2 0 (replicate (2 ^ 31 - 14) 0) = some frame ∧
    ¬HandsOver frame [.takes (2 ^ 31)] := by
  have lt : (replicate (2 ^ 31 - 14) (0 : UInt8)).length ≤ INT32_MAX := by rw [length_replicate]; decide
  obtain ⟨frame, framed, carry⟩ := websocketFrame_carries 0x2 0 lt
  have size : frame.length = 2 ^ 31 := by rw [carry.fits, length_replicate]; rfl
  refine ⟨frame, framed, fun hands => ?_⟩
  have rejected : websocketWriteAll frame [.takes (2 ^ 31)] = ([], some (-1)) :=
    if_pos (by rw [size]; decide)
  have returned := hands.returned.mpr (by rw [size]; decide)
  rw [rejected, size] at returned
  exact absurd returned (by decide)

end KvmServer.Core
