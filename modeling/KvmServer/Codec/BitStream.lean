import KvmServer.Lib.Bits
import KvmServer.Lib.Memory

/-! # The bit stream of `winpr/bitstream.h`

`wBitStream` moves 32 bits at a time between a byte buffer and an accumulator, which a reader
refills from a second word, the prefetch.  `pointer` is the distance from `buffer`. -/

namespace KvmServer.Codec
open Lib List Nat

structure WBitStream where
  buffer : Mem UInt8
  (pointer position length capacity mask offset prefetch accumulator : Nat)

def bitStreamNew : WBitStream :=
  { buffer := ⟨fun _ => 0⟩, pointer := 0, position := 0, length := 0, capacity := 0, mask := 0,
    offset := 0, prefetch := 0, accumulator := 0 }

variable (bs : WBitStream)

/-- `BitStream_Attach` leaves `mask` and `prefetch` as they are. -/
def bitStreamAttach (buffer : Mem UInt8) (capacity : Nat) : WBitStream :=
  { bs with
    position := 0
    buffer := buffer
    offset := 0
    accumulator := 0
    pointer := 0
    capacity := capacity
    length := capacity * 8 % 2 ^ 32 }

/-- The byte `pointer[k]`, or nothing to `or` in when it lies past the capacity. -/
def byteAhead (k : Nat) : Nat :=
  if bs.pointer + k < bs.capacity then (bs.buffer (bs.pointer + k)).toNat else 0

def bitStreamPrefetch : WBitStream :=
  { bs with prefetch := byteAhead bs 4 <<< 24 ||| byteAhead bs 5 <<< 16 ||| byteAhead bs 6 <<< 8 |||
      byteAhead bs 7 <<< 0 }

def bitStreamFetch : WBitStream :=
  bitStreamPrefetch
    { bs with accumulator := byteAhead bs 0 <<< 24 ||| byteAhead bs 1 <<< 16 |||
        byteAhead bs 2 <<< 8 ||| byteAhead bs 3 <<< 0 }

/-- One byte of `BitStream_Flush`: `pointer[k] = (accumulator >> s) & 0xFF` inside the capacity. -/
def flushByte (k s : Nat) : WBitStream :=
  if bs.pointer + k < bs.capacity then
    { bs with buffer := store bs.buffer (bs.pointer + k) (UInt8.ofNat (bs.accumulator >>> s &&& 0xFF)) }
  else bs

def bitStreamFlush : WBitStream :=
  flushByte (flushByte (flushByte (flushByte bs 0 24) 1 16) 2 8) 3 0

def bitStreamShift (nbits : Nat) : WBitStream :=
  if nbits = 0 then bs
  else if nbits < 32 then
    let mask := 2 ^ nbits - 1
    -- both branches of the source refill the accumulator from the prefetch first
    let bs := { bs with
      accumulator := bs.accumulator <<< nbits % 2 ^ 32 ||| (bs.prefetch >>> (32 - nbits) &&& mask)
      position := (bs.position + nbits) % 2 ^ 32
      offset := bs.offset + nbits
      mask := mask
      prefetch := bs.prefetch <<< nbits % 2 ^ 32 }
    if bs.offset < 32 then bs
    else
      let bs := bitStreamPrefetch { bs with offset := bs.offset - 32, pointer := bs.pointer + 4 }
      if bs.offset ≠ 0 then
        let mask := 2 ^ bs.offset - 1
        { bs with
          mask := mask
          accumulator := bs.accumulator ||| (bs.prefetch >>> (32 - bs.offset) &&& mask)
          prefetch := bs.prefetch <<< bs.offset % 2 ^ 32 }
      else bs
  -- a shift by a whole word or more only logs a warning
  else bs

def bitStreamShift32 : WBitStream :=
  bitStreamShift (bitStreamShift bs 16) 16

def bitStreamWriteBits (bits nbits : Nat) : WBitStream :=
  let bs := { bs with position := (bs.position + nbits) % 2 ^ 32, offset := bs.offset + nbits }
  if bs.offset < 32 then
    { bs with accumulator := bs.accumulator ||| bits <<< (32 - bs.offset) % 2 ^ 32 }
  else
    let bs := { bs with offset := bs.offset - 32 }
    let mask := 2 ^ (nbits - bs.offset) - 1
    let bs := bitStreamFlush
      { bs with mask := mask, accumulator := bs.accumulator ||| (bits >>> bs.offset &&& mask) }
    let bs := { bs with accumulator := 0, pointer := bs.pointer + 4 }
    if bs.offset ≠ 0 then
      let mask := 2 ^ bs.offset - 1
      { bs with
        mask := mask
        accumulator := bs.accumulator ||| (bits &&& mask) <<< (32 - bs.offset) % 2 ^ 32 }
    else bs

def bitStreamGetRemainingLength : Nat := sub32 bs.length bs.position

/-! ## Reading -/

/-- The stream reads the bytes `bytes` and `rest` is what it has not consumed yet. -/
structure Reads (bytes : List UInt8) (bs : WBitStream) (rest : List Bool) : Prop where
  capacity_eq : bs.capacity = bytes.length
  buffer_eq : ∀ i, i < bytes.length → bs.buffer i = bytes.getD i 0
  length_eq : bs.length = 8 * bytes.length % 2 ^ 32
  offset_lt : bs.offset < 32
  position_eq : bs.position = 8 * bs.pointer + bs.offset
  rest_eq : rest = (msbByteBits bytes).drop bs.position
  accumulator_eq : bs.accumulator = msbPeek rest 32
  prefetch_eq : bs.prefetch = msbPeek (rest.drop 32) (32 - bs.offset) * 2 ^ bs.offset
  inside : bs.position ≤ 8 * bytes.length
  small : 8 * bytes.length < 2 ^ 32

/-- The same without a bound: past the end of the bytes the stream reads zeros. -/
structure Window (bytes : List UInt8) (bs : WBitStream) (rest : List Bool) : Prop where
  capacity_eq : bs.capacity = bytes.length
  buffer_eq : ∀ i, i < bytes.length → bs.buffer i = bytes.getD i 0
  length_eq : bs.length = 8 * bytes.length % 2 ^ 32
  offset_lt : bs.offset < 32
  position_eq : bs.position = 8 * bs.pointer + bs.offset
  rest_eq : rest = (msbByteBits bytes).drop bs.position
  accumulator_eq : bs.accumulator = msbPeek rest 32
  prefetch_eq : bs.prefetch = msbPeek (rest.drop 32) (32 - bs.offset) * 2 ^ bs.offset

variable {bytes : List UInt8} {bs : WBitStream} {rest bits : List Bool}
  {n v p offset : Nat} {l : List Bool}

theorem Reads.window (rd : Reads bytes bs rest) : Window bytes bs rest :=
  ⟨rd.capacity_eq, rd.buffer_eq, rd.length_eq, rd.offset_lt, rd.position_eq,
    rd.rest_eq, rd.accumulator_eq, rd.prefetch_eq⟩

theorem byteAhead_eq (cap : bs.capacity = bytes.length)
    (buffer : ∀ i, i < bytes.length → bs.buffer i = bytes.getD i 0) (k : Nat) :
    byteAhead bs k = msbPeek ((msbByteBits bytes).drop (8 * (bs.pointer + k))) 8 := by
  rw [msbPeek_msbByteBits]
  unfold byteAhead
  split
  · rw [buffer _ (by omega)]
  rw [getD_eq_default _ _ (by omega)]
  rfl

theorem word_eq_msbPeek (l : List Bool) :
    (msbPeek l 8 <<< 24 ||| msbPeek (l.drop 8) 8 <<< 16 ||| msbPeek (l.drop 16) 8 <<< 8 |||
      msbPeek (l.drop 24) 8 <<< 0) = msbPeek l 32 := by
  have b₁ := msbPeek_lt (l.drop 8) 8
  have b₂ := msbPeek_lt (l.drop 16) 8
  have b₃ := msbPeek_lt (l.drop 24) 8
  have split₁ := msbPeek_add l 8 24
  have split₂ := msbPeek_add (l.drop 8) 8 16
  have split₃ := msbPeek_add (l.drop 16) 8 8
  rw [drop_drop] at split₂ split₃
  simp only [Nat.reduceAdd] at split₁ split₂ split₃
  rw [split₁, split₂, split₃, Nat.or_assoc, Nat.or_assoc]
  simp only [shiftLeft_eq]
  rw [mul_two_pow_or (k := 8) (by omega), mul_two_pow_or (k := 16) (by omega),
    mul_two_pow_or (k := 24) (by omega)]
  omega

theorem bitStreamPrefetch_prefetch (cap : bs.capacity = bytes.length)
    (buffer : ∀ i, i < bytes.length → bs.buffer i = bytes.getD i 0) : (bitStreamPrefetch bs).prefetch =
      msbPeek ((msbByteBits bytes).drop (8 * bs.pointer + 32)) 32 := by
  rw [← word_eq_msbPeek]
  simp only [bitStreamPrefetch, byteAhead_eq cap buffer, drop_drop, mul_add,
    add_assoc, reduceMul, Nat.reduceAdd]

theorem window_attach_fetch (bs : WBitStream) (bytes : List UInt8) :
    Window bytes (bitStreamFetch (bitStreamAttach bs (listMem 0 bytes) bytes.length))
    (msbByteBits bytes) := by
  have buffer : ∀ i, i < bytes.length → listMem 0 bytes i = bytes.getD i 0 := fun _ _ => rfl
  refine ⟨rfl, buffer, ?_,
    by simp [bitStreamFetch, bitStreamPrefetch, bitStreamAttach], rfl, rfl, ?_, ?_⟩
  · simp [bitStreamFetch, bitStreamPrefetch, bitStreamAttach, mul_comm]
  · rw [← word_eq_msbPeek]
    have ahead :=
      fun k => @byteAhead_eq bytes (bitStreamAttach bs (listMem 0 bytes) bytes.length) rfl buffer k
    simp only [bitStreamFetch, bitStreamPrefetch, ahead]
    simp [bitStreamAttach]
  rw [bitStreamFetch, @bitStreamPrefetch_prefetch bytes _ rfl buffer]
  simp [bitStreamAttach, bitStreamPrefetch]

theorem Window.reads (win : Window bytes bs rest)
    (inside : bs.position ≤ 8 * bytes.length) (lt : 8 * bytes.length < 2 ^ 32) : Reads bytes bs rest :=
  ⟨win.capacity_eq, win.buffer_eq, win.length_eq, win.offset_lt, win.position_eq, win.rest_eq,
    win.accumulator_eq, win.prefetch_eq, inside, lt⟩

theorem reads_attach_fetch (bs : WBitStream) (lt : 8 * bytes.length < 2 ^ 32) :
    Reads bytes (bitStreamFetch (bitStreamAttach bs (listMem 0 bytes) bytes.length))
    (msbByteBits bytes) :=
  (window_attach_fetch bs bytes).reads (Nat.zero_le _) lt

theorem Reads.length_add_position (rd : Reads bytes bs rest) :
    rest.length + bs.position = 8 * bytes.length := by
  have inside := rd.inside
  rw [rd.rest_eq, length_drop, msbByteBits_length]
  omega

theorem Reads.remainingLength (rd : Reads bytes bs rest) :
    sub32 bs.length bs.position = rest.length := by
  have total := rd.length_add_position
  rw [rd.length_eq, mod_eq_of_lt rd.small, sub32_of_le rd.inside rd.small]
  omega

theorem accumulator_refill (lt : offset + n < 32) : (msbPeek rest 32 <<< n % 2 ^ 32 |||
        (msbPeek (rest.drop 32) (32 - offset) * 2 ^ offset) >>> (32 - n) &&& (2 ^ n - 1)) = msbPeek
          (rest.drop n) 32 := by
  have head :
      msbPeek (rest.drop 32) (32 - offset) / 2 ^ (32 - n - offset) = msbPeek (rest.drop 32) n := by
    rw [← msbPeek_div _ n (32 - n - offset)]
    congr 2
    omega
  have tail : msbPeek rest 32 % 2 ^ (32 - n) = msbPeek (rest.drop n) (32 - n) := by
    rw [← msbPeek_mod _ n (32 - n), Nat.add_sub_cancel' (by omega)]
  have fits := msbPeek_lt (rest.drop 32) n
  rw [shiftLeft_mod (by omega), tail, shiftRight_eq_div_pow, mul_two_pow_div_of_ge (by omega),
    head, and_two_pow_sub_one_eq_mod, mod_eq_of_lt fits, mul_two_pow_or fits]
  have all := msbPeek_add (rest.drop n) (32 - n) n
  rw [drop_drop, Nat.sub_add_cancel (by omega), Nat.add_sub_cancel' (by omega)] at all
  exact all.symm

theorem accumulator_refill_across (inWord : offset < 32) (short : n < 32) (ge : 32 ≤ offset + n) :
    (msbPeek rest 32 <<< n % 2 ^ 32 ||| (msbPeek (rest.drop 32) (32 - offset) * 2 ^ offset) >>>
      (32 - n) &&& (2 ^ n - 1)) =
      msbPeek (rest.drop n) (64 - offset - n) * 2 ^ (offset + n - 32) := by
  have tail : msbPeek rest 32 % 2 ^ (32 - n) = msbPeek (rest.drop n) (32 - n) := by
    rw [← msbPeek_mod _ n (32 - n), Nat.add_sub_cancel' (by omega)]
  have fits : msbPeek (rest.drop 32) (32 - offset) * 2 ^ (offset + n - 32) < 2 ^ n := by
    have := Nat.mul_lt_mul_of_pos_right (msbPeek_lt (rest.drop 32) (32 - offset))
      (Nat.two_pow_pos (offset + n - 32))
    rwa [← pow_add, show 32 - offset + (offset + n - 32) = n by omega] at this
  have all := msbPeek_add (rest.drop n) (32 - n) (32 - offset)
  rw [drop_drop, Nat.add_sub_cancel' (by omega)] at all
  rw [shiftLeft_mod (by omega), tail, shiftRight_eq_div_pow, mul_two_pow_div_of_le (by omega),
    show offset - (32 - n) = offset + n - 32 by omega, and_two_pow_sub_one_eq_mod,
    mod_eq_of_lt fits, mul_two_pow_or fits, show 64 - offset - n = 32 - n + (32 - offset) by omega,
    all, add_mul, mul_assoc, ← pow_add, show 32 - offset + (offset + n - 32) = n by omega]

/-- The missing `offset` bits of the accumulator come from the next word. -/
theorem window_refill (cap : bs.capacity = bytes.length)
    (buffer : ∀ i, i < bytes.length → bs.buffer i = bytes.getD i 0)
    (len : bs.length = 8 * bytes.length % 2 ^ 32) (offset : bs.offset < 32)
    (position : p = 8 * bs.pointer + bs.offset) (stream : rest = (msbByteBits bytes).drop p)
    (accumulator : bs.accumulator = msbPeek rest (32 - bs.offset) * 2 ^ bs.offset) :
    Window bytes { (let bs := bitStreamPrefetch bs
      if bs.offset ≠ 0 then
        let mask := 2 ^ bs.offset - 1
        { bs with
          mask := mask
          accumulator := bs.accumulator ||| (bs.prefetch >>> (32 - bs.offset) &&& mask)
          prefetch := bs.prefetch <<< bs.offset % 2 ^ 32 }
      else bs) with position := p } rest := by
  have word : (bitStreamPrefetch bs).prefetch = msbPeek (rest.drop (32 - bs.offset)) 32 := by
    rw [bitStreamPrefetch_prefetch cap buffer, stream, drop_drop, position]
    congr 2
    omega
  have sameOff : (bitStreamPrefetch bs).offset = bs.offset := rfl
  have sameAcc : (bitStreamPrefetch bs).accumulator = bs.accumulator := rfl
  by_cases aligned : bs.offset = 0
  · simp only [sameOff, if_neg (not_not.mpr aligned)]
    refine ⟨cap, buffer, len, offset, position, stream, ?_, ?_⟩
    · simp only [sameAcc, accumulator]
      simp [aligned]
    simp only [word]
    simp [aligned]
  simp only [sameOff, ne_eq, aligned, not_false_eq_true, if_true]
  refine ⟨cap, buffer, len, offset, position, stream, ?_, ?_⟩
  · have top := msbPeek_div (rest.drop (32 - bs.offset)) bs.offset (32 - bs.offset)
    have fits := msbPeek_lt (rest.drop (32 - bs.offset)) bs.offset
    have all := msbPeek_add rest (32 - bs.offset) bs.offset
    rw [Nat.add_sub_cancel' (by omega)] at top
    rw [Nat.sub_add_cancel (by omega)] at all
    simp only [word, sameAcc, accumulator]
    rw [shiftRight_eq_div_pow, and_two_pow_sub_one_eq_mod, top, mod_eq_of_lt fits,
      mul_two_pow_or fits, all]
  have low := msbPeek_mod (rest.drop (32 - bs.offset)) bs.offset (32 - bs.offset)
  rw [Nat.add_sub_cancel' (by omega), drop_drop, Nat.sub_add_cancel (by omega)] at low
  simp only [word]
  rw [shiftLeft_mod (by omega), low]

/-- `position` wraps around, the pointer does not. -/
theorem Window.shift_from (win : Window bytes { bs with position := p } rest) (short : n < 32) :
    Window bytes { bitStreamShift bs n with position := p + n } (rest.drop n) := by
  obtain ⟨cap, buffer, len, offset, position, stream, acc, prefetch⟩ := win
  dsimp only at cap buffer len offset position stream acc prefetch
  unfold bitStreamShift
  by_cases zero : n = 0
  · subst zero
    exact ⟨cap, buffer, len, offset, position, stream, acc, prefetch⟩
  rw [if_neg zero, if_pos short]
  by_cases stay : bs.offset + n < 32
  · simp only [if_pos stay]
    refine ⟨cap, buffer, len, stay, ?_, ?_, ?_, ?_⟩
    · simp only
      omega
    · simp only [stream, drop_drop]
    · simp only [acc, prefetch]
      exact accumulator_refill stay
    simp only [prefetch]
    rw [shiftLeft_mod (by omega), drop_drop, add_comm n 32, ← drop_drop]
    have low := msbPeek_mod (rest.drop 32) n (32 - bs.offset - n)
    rw [Nat.add_sub_cancel' (by omega)] at low
    rw [sub_add_eq, ← low, show 32 - n = 32 - bs.offset - n + bs.offset by omega,
      pow_add 2 (32 - bs.offset - n), mul_mod_mul_right, mul_assoc, ← pow_add]
  simp only [if_neg stay]
  have refilled := @accumulator_refill_across rest _ _ offset short (not_lt.mp stay)
  rw [← acc, ← prefetch] at refilled
  refine window_refill cap buffer len ?_ ?_ ?_ ?_
  · simp only
    omega
  · simp only
    omega
  · simp only [stream, drop_drop]
  simp only [refilled]
  rw [show 32 - (bs.offset + n - 32) = 64 - bs.offset - n by omega]

theorem bitStreamShift_wraps (bs : WBitStream) (short : n < 32) (lt : bs.position < 2 ^ 32) :
    (bitStreamShift bs n).position = (bs.position + n) % 2 ^ 32 := by
  unfold bitStreamShift
  by_cases zero : n = 0
  · rw [if_pos zero, zero]
    exact (mod_eq_of_lt lt).symm
  rw [if_neg zero, if_pos short]
  dsimp only
  split
  · rfl
  split
  · rfl
  · rfl

theorem bitStreamShift_position (bs : WBitStream) (short : n < 32) (room : bs.position + n < 2 ^ 32) :
    (bitStreamShift bs n).position = bs.position + n := by
  rw [bitStreamShift_wraps bs short (by omega), mod_eq_of_lt room]

theorem Window.shift (win : Window bytes bs rest) (short : n < 32) (room : bs.position + n < 2 ^ 32) :
    Window bytes (bitStreamShift bs n) (rest.drop n) := by
  have next := @Window.shift_from bytes bs rest n bs.position win short
  rwa [← bitStreamShift_position bs short room] at next

theorem Reads.shift (rd : Reads bytes bs rest) (short : n < 32) (enough : n ≤ rest.length) :
    Reads bytes (bitStreamShift bs n) (rest.drop n) := by
  have total := rd.length_add_position
  have lt := rd.small
  have room : bs.position + n < 2 ^ 32 := by omega
  apply (rd.window.shift short room).reads
  · rw [bitStreamShift_position bs short room]
    omega
  · exact lt

theorem Reads.shift_append {pre : List Bool} (rd : Reads bytes bs (pre ++ rest))
    (len : pre.length = n) (short : n < 32) :
    Reads bytes (bitStreamShift bs n) rest := by
  have shf := rd.shift short (by rw [length_append]; omega)
  rwa [drop_left' len] at shf

/-! ## Writing -/

/-- `bits` were written: the words before `pointer` to the buffer, as far as it goes, the rest to
the accumulator. -/
structure Writes (bs : WBitStream) (bits : List Bool) : Prop where
  offset_lt : bs.offset < 32
  length_eq : bits.length = 8 * bs.pointer + bs.offset
  position_eq : bs.position = bits.length
  accumulator_eq : bs.accumulator = msbPeek (bits.drop (8 * bs.pointer)) 32
  buffer_eq : ∀ i, i < bs.pointer → i < bs.capacity →
    bs.buffer i = UInt8.ofNat (msbPeek (bits.drop (8 * i)) 8)

theorem writes_attach (bs : WBitStream) (buffer : Mem UInt8) (cap : Nat) :
    Writes (bitStreamAttach bs buffer cap) [] := by
  refine ⟨by simp [bitStreamAttach], rfl, rfl, by simp [bitStreamAttach], ?_⟩
  intro i lt
  simp [bitStreamAttach] at lt

theorem flushByte_eq (bs : WBitStream) (k s : Nat) : flushByte bs k s =
      { bs with buffer := ⟨fun i => if i = bs.pointer + k ∧ i < bs.capacity then
          UInt8.ofNat (bs.accumulator / 2 ^ s % 2 ^ 8) else bs.buffer i⟩ } := by
  unfold flushByte store
  rw [shiftRight_eq_div_pow, show (0xFF : Nat) = 2 ^ 8 - 1 by rfl, and_two_pow_sub_one_eq_mod]
  split
  · congr 2
    funext i
    by_cases here : i = bs.pointer + k
    · simp_all
    · simp [here]
  rename_i outside
  have same : (⟨fun i => if i = bs.pointer + k ∧ i < bs.capacity then
      UInt8.ofNat (bs.accumulator / 2 ^ s % 2 ^ 8) else bs.buffer i⟩ : Mem UInt8) = bs.buffer := by
    ext1 i
    dsimp only
    rw [if_neg]
    rintro ⟨rfl, inside⟩
    exact outside inside
  rw [same]

theorem bitStreamFlush_eq (bs : WBitStream) : ∃ buffer,
    bitStreamFlush bs = { bs with buffer := buffer } ∧
      ∀ i, buffer i = if bs.pointer ≤ i ∧ i < bs.pointer + 4 ∧ i < bs.capacity then
        UInt8.ofNat (bs.accumulator / 2 ^ (24 - 8 * (i - bs.pointer)) % 2 ^ 8) else bs.buffer i := by
  refine ⟨_, by rw [bitStreamFlush, flushByte_eq, flushByte_eq, flushByte_eq, flushByte_eq], ?_⟩
  intro i
  by_cases inside : bs.pointer ≤ i ∧ i < bs.pointer + 4 ∧ i < bs.capacity
  · obtain ⟨k, rfl⟩ := Nat.exists_eq_add_of_le inside.1
    have fourth : k = 0 ∨ k = 1 ∨ k = 2 ∨ k = 3 := by omega
    rcases fourth with rfl | rfl | rfl | rfl <;> simp [inside.2.2]
  rw [if_neg inside]
  dsimp only
  rw [if_neg (by omega), if_neg (by omega), if_neg (by omega), if_neg (by omega)]

theorem flush_buffer (acc : bs.accumulator = msbPeek (bits.drop (8 * bs.pointer)) 32)
    (buffer : ∀ i, i < bs.pointer → i < bs.capacity →
      bs.buffer i = UInt8.ofNat (msbPeek (bits.drop (8 * i)) 8)) :
    ∀ i, i < bs.pointer + 4 → i < bs.capacity →
    (bitStreamFlush bs).buffer i = UInt8.ofNat (msbPeek (bits.drop (8 * i)) 8) := by
  intro i lt inside
  obtain ⟨_, eq, value⟩ := bitStreamFlush_eq bs
  rw [eq]
  simp only [value]
  by_cases here : bs.pointer ≤ i
  · have field :=
      msbPeek_field (bits.drop (8 * bs.pointer)) (8 * (i - bs.pointer)) 8 (24 - 8 * (i - bs.pointer))
    rw [drop_drop, show 8 * bs.pointer + 8 * (i - bs.pointer) = 8 * i by omega,
      show 8 * (i - bs.pointer) + 8 + (24 - 8 * (i - bs.pointer)) = 32 by omega] at field
    rw [if_pos ⟨here, lt, inside⟩, acc, field]
  · rw [if_neg (by omega), buffer i (by omega) inside]

theorem Writes.flush (writes : Writes { bs with position := p } bits)
    (room : 8 * n < bits.length + 8) (fits : n ≤ bs.capacity) :
    block (bitStreamFlush bs).buffer 0 n = msbBytes n bits := by
  have bytes := @flush_buffer bs bits writes.accumulator_eq writes.buffer_eq
  have len : bits.length = 8 * bs.pointer + bs.offset := writes.length_eq
  have offset : bs.offset < 32 := writes.offset_lt
  have upTo :
      ∀ m i, i + m ≤ n → block (bitStreamFlush bs).buffer i m = msbBytes m (bits.drop (8 * i)) := by
    intro m
    induction m with
    | zero => intro i _; rfl
    | succ m ih =>
      intro i _
      rw [block, msbBytes, bytes i (by omega) (by omega), ih (i + 1) (by omega), drop_drop, mul_succ]
  simpa using upTo n 0 (by omega)

theorem msbPeek_of_length_le (le : l.length ≤ n) :
    msbPeek l n = msbPeek l l.length * 2 ^ (n - l.length) := by
  have split := msbPeek_add l l.length (n - l.length)
  rw [Nat.add_sub_cancel' le, drop_length, msbPeek_nil, add_zero] at split
  exact split

theorem msbPeek_append_msbBits {k : Nat} (lt : v < 2 ^ n) (le : k ≤ n) :
    msbPeek (l ++ msbBits n v) (l.length + k) = msbPeek l l.length * 2 ^ k + v / 2 ^ (n - k) := by
  have head := msbPeek_div (msbBits n v) k (n - k)
  rw [Nat.add_sub_cancel' le, msbPeek_msbBits, mod_eq_of_lt lt] at head
  rw [msbPeek_add, msbPeek_append_of_le le_rfl, drop_left, head]

/-- The last `offset` bits of the value start the next word. -/
theorem writes_nextWord (offset : bs.offset < 32)
    (len : bits.length = 8 * (bs.pointer + 4) + bs.offset) (position : p = bits.length)
    (accumulator : bs.accumulator = msbPeek (bits.drop (8 * bs.pointer)) 32)
    (buffer : ∀ i, i < bs.pointer → i < bs.capacity →
      bs.buffer i = UInt8.ofNat (msbPeek (bits.drop (8 * i)) 8))
    (low : msbPeek (bits.drop (8 * (bs.pointer + 4))) bs.offset = v % 2 ^ bs.offset) :
    Writes { (let bs := bitStreamFlush bs
      let bs := { bs with accumulator := 0, pointer := bs.pointer + 4 }
      if bs.offset ≠ 0 then
        let mask := 2 ^ bs.offset - 1
        { bs with
          mask := mask
          accumulator := bs.accumulator ||| (v &&& mask) <<< (32 - bs.offset) % 2 ^ 32 }
      else bs) with position := p } bits := by
  have flush := flush_buffer accumulator buffer
  obtain ⟨_, eq, -⟩ := bitStreamFlush_eq bs
  rw [eq] at flush ⊢
  have tail : (bits.drop (8 * (bs.pointer + 4))).length = bs.offset := by
    rw [length_drop]
    omega
  have word := msbPeek_of_length_le (l := bits.drop (8 * (bs.pointer + 4))) (n := 32) (by omega)
  rw [tail, low] at word
  by_cases aligned : bs.offset = 0
  · simp only [aligned, ne_eq, not_true_eq_false, if_false]
    refine ⟨by simp, by simpa [aligned] using len, position, ?_, flush⟩
    rw [word]
    simp [aligned, mod_one]
  simp only [ne_eq, aligned, not_false_eq_true, if_true]
  refine ⟨offset, len, position, ?_, flush⟩
  rw [word, and_two_pow_sub_one_eq_mod, shiftLeft_mod (by omega),
    show 32 - (32 - bs.offset) = bs.offset by omega, mod_mod, zero_or]

theorem bitStreamFlush_frame (bs : WBitStream) :
    (bitStreamFlush bs).capacity = bs.capacity ∧ (bitStreamFlush bs).position = bs.position := by
  obtain ⟨_, eq, -⟩ := bitStreamFlush_eq bs
  rw [eq]
  exact ⟨rfl, rfl⟩

theorem bitStreamWriteBits_frame (bs : WBitStream) (v n : Nat) :
    (bitStreamWriteBits bs v n).capacity = bs.capacity ∧
    (bitStreamWriteBits bs v n).position = (bs.position + n) % 2 ^ 32 := by
  unfold bitStreamWriteBits
  dsimp only
  split
  · exact ⟨rfl, rfl⟩
  · split <;> exact bitStreamFlush_frame _

@[simp] theorem bitStreamWriteBits_capacity (bs : WBitStream) (bits nbits : Nat) :
    (bitStreamWriteBits bs bits nbits).capacity = bs.capacity :=
    (bitStreamWriteBits_frame bs bits nbits).1

theorem Writes.writeBits_from (writes : Writes { bs with position := p } bits)
    (value : v < 2 ^ n) (short : n < 32) :
    Writes { bitStreamWriteBits bs v n with position := p + n } (bits ++ msbBits n v) := by
  obtain ⟨offset, len, position, acc, buffer⟩ := writes
  dsimp only at offset len position acc buffer
  have tail : (bits ++ msbBits n v).drop (8 * bs.pointer) =
      bits.drop (8 * bs.pointer) ++ msbBits n v := drop_append_of_le_length (by omega)
  have tailLen : (bits.drop (8 * bs.pointer)).length = bs.offset := by
    rw [length_drop]
    omega
  have pre : ∀ i, i < bs.pointer → i < bs.capacity →
      bs.buffer i = UInt8.ofNat (msbPeek ((bits ++ msbBits n v).drop (8 * i)) 8) := by
    intro i lt inside
    rw [buffer i lt inside, drop_append_of_le_length (by omega),
      msbPeek_append_of_le (by rw [length_drop]; omega)]
  generalize bits.drop (8 * bs.pointer) = word at tail tailLen acc
  have top := msbPeek_of_length_le (l := word) (n := 32) (by omega)
  rw [tailLen] at top
  have newPos : p + n = (bits ++ msbBits n v).length := by
    rw [position, length_append, msbBits_length]
  unfold bitStreamWriteBits
  by_cases stay : bs.offset + n < 32
  · have room : v * 2 ^ (32 - (bs.offset + n)) < 2 ^ (32 - bs.offset) := by
      have := Nat.mul_lt_mul_of_pos_right value (Nat.two_pow_pos (32 - (bs.offset + n)))
      rwa [← pow_add, show n + (32 - (bs.offset + n)) = 32 - bs.offset by omega] at this
    simp only [if_pos stay]
    refine ⟨stay, ?_, newPos, ?_, pre⟩
    · rw [length_append, msbBits_length]
      simp only
      omega
    have all :=
      msbPeek_of_length_le (l := word ++ msbBits n v) (n := 32) (by rw [length_append, msbBits_length]; omega)
    have app := msbPeek_append_msbBits (l := word) value le_rfl
    rw [length_append, msbBits_length, app, tailLen, Nat.sub_self, pow_zero,
      Nat.div_one, add_mul, mul_assoc, ← pow_add,
      show n + (32 - (bs.offset + n)) = 32 - bs.offset by omega] at all
    rw [tail, all, acc, top, shiftLeft_mod (by omega),
      mod_eq_of_lt (lt_of_lt_of_le value (Nat.pow_le_pow_right (by omega) (by omega))),
      mul_two_pow_or room]
  simp only [if_neg stay]
  have quot : v / 2 ^ (bs.offset + n - 32) < 2 ^ (32 - bs.offset) := by
    rw [Nat.div_lt_iff_lt_mul (Nat.two_pow_pos _), ← pow_add,
      show 32 - bs.offset + (bs.offset + n - 32) = n by omega]
    exact value
  refine writes_nextWord ?_ ?_ newPos ?_ pre ?_
  · simp only
    omega
  · rw [length_append, msbBits_length]
    simp only
    omega
  · have app := msbPeek_append_msbBits (l := word) value (show 32 - bs.offset ≤ n by omega)
    rw [tailLen, show bs.offset + (32 - bs.offset) = 32 by omega,
      show n - (32 - bs.offset) = bs.offset + n - 32 by omega] at app
    simp only [tail, app, acc, top]
    rw [shiftRight_eq_div_pow, and_two_pow_sub_one_eq_mod,
      show n - (bs.offset + n - 32) = 32 - bs.offset by omega, mod_eq_of_lt quot,
      mul_two_pow_or quot]
  · have low := msbPeek_mod (msbBits n v) (32 - bs.offset) (bs.offset + n - 32)
    rw [show 32 - bs.offset + (bs.offset + n - 32) =
      n by omega, msbPeek_msbBits, mod_eq_of_lt value] at low
    rw [mul_add, ← drop_drop, tail, drop_append, tailLen, drop_eq_nil_of_le (by omega), nil_append, low]

theorem Writes.writeBits (writes : Writes bs bits) (value : v < 2 ^ n) (short : n < 32)
    (lt : bits.length + n < 2 ^ 32) :
    Writes (bitStreamWriteBits bs v n) (bits ++ msbBits n v) := by
  have next := @Writes.writeBits_from bs bits n v bs.position writes value short
  have position := (bitStreamWriteBits_frame bs v n).2
  rw [writes.position_eq, mod_eq_of_lt lt, ← writes.position_eq] at position
  rwa [← position] at next

/-! ## Whole runs -/

def bitStreamReadBits : WBitStream → List Nat → List Nat
  | _, [] => []
  | bs, n :: widths => bs.accumulator >>> (32 - n) :: bitStreamReadBits (bitStreamShift bs n) widths

variable {ws : List Nat} {fs : List (Nat × Nat)}

theorem Window.shifts (win : Window bytes { bs with position := p } rest)
    (short : ∀ n ∈ ws, 0 < n ∧ n < 32) :
    Window bytes { ws.foldl bitStreamShift bs with position := p + ws.sum } (rest.drop ws.sum) := by
  induction ws generalizing bs p rest with
  | nil => exact win
  | cons n ws ih =>
    obtain ⟨⟨-, fst⟩, short⟩ := forall_mem_cons.mp short
    have tail := ih (win.shift_from fst) short
    rwa [drop_drop, add_assoc] at tail

theorem shifts_position (short : ∀ n ∈ ws, 0 < n ∧ n < 32) (lt : bs.position < 2 ^ 32) :
    (ws.foldl bitStreamShift bs).position = (bs.position + ws.sum) % 2 ^ 32 := by
  induction ws generalizing bs with
  | nil => exact (mod_eq_of_lt lt).symm
  | cons n ws ih =>
    obtain ⟨⟨-, fst⟩, short⟩ := forall_mem_cons.mp short
    have next := bitStreamShift_wraps bs fst lt
    rw [foldl_cons, ih short (by omega), next, sum_cons]
    omega

section
variable (fits : ∀ f ∈ fs, f.1 < 2 ^ f.2 ∧ 0 < f.2 ∧ f.2 < 32)
include fits

theorem Writes.writeAll (writes : Writes { bs with position := p } bits) :
    let s := fs.foldl (fun bs f => bitStreamWriteBits bs f.1 f.2) bs
    s.capacity = bs.capacity ∧ ∃ p,
      Writes { s with position := p } (bits ++ fs.flatMap fun f => msbBits f.2 f.1) := by
  induction fs generalizing bs bits p with
  | nil => exact ⟨rfl, p, by simpa using writes⟩
  | cons f fs ih =>
    obtain ⟨⟨value, -, short⟩, fits⟩ := forall_mem_cons.mp fits
    have tail := ih fits (writes.writeBits_from value short)
    rwa [bitStreamWriteBits_capacity, append_assoc] at tail

theorem Window.readBits (win : Window bytes { bs with position := p } rest)
    (written : rest = (fs.flatMap fun f => msbBits f.2 f.1) ++ bits) :
      bitStreamReadBits bs (fs.map Prod.snd) = fs.map Prod.fst := by
  induction fs generalizing bs p rest with
  | nil => rfl
  | cons f fs ih =>
    obtain ⟨⟨value, -, short⟩, fits⟩ := forall_mem_cons.mp fits
    rw [flatMap_cons, append_assoc] at written
    have acc : bs.accumulator = msbPeek rest (f.2 + (32 - f.2)) := by
      rw [Nat.add_sub_cancel' short.le]
      exact win.accumulator_eq
    have tail := ih fits (win.shift_from short) (by rw [written, drop_left' (msbBits_length _ _)])
    rw [map_cons, map_cons, bitStreamReadBits, tail, acc, shiftRight_eq_div_pow,
      msbPeek_div, written, msbPeek_msbBits_append value]

end

/-- Shifting moves through the bits of the buffer, and writing appends to them. -/
theorem bit_stream_refines (bs : WBitStream) :
    (∀ (bytes : List UInt8) (widths : List Nat), (∀ n ∈ widths, 0 < n ∧ n < 32) →
      let s := widths.foldl bitStreamShift (bitStreamFetch (bitStreamAttach bs (listMem 0 bytes) bytes.length))
      s.position = widths.sum % 2 ^ 32 ∧
        s.accumulator = msbPeek ((msbByteBits bytes).drop widths.sum) 32) ∧
    ∀ (buffer : Mem UInt8) (capacity : Nat) (fields : List (Nat × Nat)),
      (∀ f ∈ fields, f.1 < 2 ^ f.2 ∧ 0 < f.2 ∧ f.2 < 32) → (fields.map Prod.snd).sum ≤ 8 * capacity →
      let s := bitStreamFlush
        (fields.foldl (fun bs f => bitStreamWriteBits bs f.1 f.2) (bitStreamAttach bs buffer capacity))
      bitStreamReadBits
        (bitStreamFetch (bitStreamAttach bs (listMem 0 (block s.buffer 0 capacity)) capacity))
        (fields.map Prod.snd) = fields.map Prod.fst := by
  have win (bytes : List UInt8) : Window bytes
      { bitStreamFetch (bitStreamAttach bs (listMem 0 bytes) bytes.length) with position := 0 }
        (msbByteBits bytes) :=
    window_attach_fetch bs bytes
  refine ⟨fun bytes widths short => ⟨?_, ?_⟩, fun buffer capacity fields fits big => ?_⟩
  · rw [shifts_position short (Nat.two_pow_pos 32)]
    exact congrArg (· % 2 ^ 32) (Nat.zero_add _)
  · have all := ((win bytes).shifts short).accumulator_eq
    exact all
  intro s
  obtain ⟨cap, p, writes⟩ :=
    @Writes.writeAll (bitStreamAttach bs buffer capacity) [] 0 _ fits (writes_attach bs buffer capacity)
  rw [nil_append] at writes
  have rd := win (block s.buffer 0 capacity)
  rw [block_length] at rd
  have len : (fields.flatMap fun f => msbBits f.2 f.1).length = (fields.map Prod.snd).sum := by
    simp [length_flatMap]
  -- the bytes that hold the fields, and those behind them
  obtain ⟨more, eq⟩ :=
    Nat.exists_eq_add_of_le (show ((fields.map Prod.snd).sum + 7) / 8 ≤ capacity by omega)
  have whole := writes.flush (n := ((fields.map Prod.snd).sum + 7) / 8) (by omega)
    (by rw [cap]; exact (Nat.le_add_right _ more).trans eq.ge)
  apply rd.readBits fits
  rw [eq, block_add, whole, msbByteBits, flatMap_append, ← msbByteBits,
    msbByteBits_msbBytes, takeD_eq_append (by omega), append_assoc]

end KvmServer.Codec
