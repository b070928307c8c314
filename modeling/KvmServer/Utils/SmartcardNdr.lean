import KvmServer.Lib.Bytes
import KvmServer.Lib.Loop

/-! # NDR arrays of smartcard calls (`utils/smartcard_pack.c`) -/

namespace KvmServer.Utils
open Lib List

inductive NdrPtr where
  | full
  | simple
  | fixed

inductive NdrStop where
  | bufferTooSmall
  | dataError
  | assertion

structure NdrStream where
  bytes : List UInt8
  spare : Nat
  fits : bytes.length + spare < 2 ^ 64

/-- The padding to a multiple of four.  The mask has 32 bits, and the difference 64. -/
def sizeAlign (size : Nat) : Nat := ((size + 3) % 2 ^ 32 / 4 * 4 + 2 ^ 64 - size) % 2 ^ 64

def smartcardNdrHeader (s : List UInt8) (min : Nat) (type : NdrPtr) : Except NdrStop (Nat × Nat) :=
  let required := match type with
    | .full => 12
    | .simple => 4
    | .fixed => min
  let (header, len, invalid) := match type with
    | .full =>
      let len := leValue (s.take 4)
      (12, len, decide (len ≠ leValue (s.drop 4 |>.take 4) + leValue (s.drop 8 |>.take 4)))
    | .simple =>
      let len := leValue (s.take 4)
      (4, len, decide (len ≠ min ∧ min > 0))
    | .fixed => (0, min % 2 ^ 32, false)
  if s.length < required then .error .bufferTooSmall
  else if invalid then .error .bufferTooSmall
  else if min > len then .error .dataError
  else .ok (header, len)

def smartcardNdrRead (s : NdrStream) (min elementSize : Nat) (type : NdrPtr) :
    Except NdrStop (List UInt8 × Nat) := do
  let (header, len) ← smartcardNdrHeader s.bytes min type
  let size := len * elementSize
  -- `Stream_CheckAndLogRequiredLengthOfSize`
  if elementSize = 0 then .error .assertion
  else if (s.bytes.length - header) / elementSize < len then .error .bufferTooSmall
  -- `Stream_Seek` compares the padding with the capacity
  else if s.bytes.length + s.spare < header + size + sizeAlign size then .error .assertion
  else .ok ((s.bytes.drop header).take size, header + size + sizeAlign size)

def smartcardNdrPtr (size : Nat) : NdrPtr → List UInt8
  | .full => leBytes 4 size ++ (leBytes 4 0 ++ leBytes 4 size)
  | .simple => leBytes 4 size
  | .fixed => []

/-- What `smartcard_ndr_write` appends.  The padding is that of the number of elements; room for
one that is negative cannot be made. -/
def smartcardNdrWrite (data : List UInt8) (size elementSize : Nat) (type : NdrPtr) :
    Option (List UInt8) :=
  if size = 0 then some []
  else if sizeAlign size < 2 ^ 32 then
    some (smartcardNdrPtr size type ++
      (data.take (size * elementSize % 2 ^ 32) ++ replicate (sizeAlign size) 0))
  else none

theorem sizeAlign_eq {size : Nat} (lt : size + 3 < 2 ^ 32) :
    sizeAlign size = (size + 3) / 4 * 4 - size := by
  unfold sizeAlign
  omega

theorem lt_sizeAlign {size : Nat} (big : 2 ^ 32 ≤ size + 3) (fits : size < 2 ^ 64) :
    2 ^ 64 ≤ size + sizeAlign size := by
  unfold sizeAlign
  omega

/-- The header lies inside of the stream, and no assertion is made for it. -/
theorem ndrHeader_spec (s : List UInt8) (min : Nat) (type : NdrPtr) :
    smartcardNdrHeader s min type = .error .bufferTooSmall ∨
    smartcardNdrHeader s min type = .error .dataError ∨
      ∃ header len, smartcardNdrHeader s min type = .ok (header, len) ∧ header ≤ s.length := by
  unfold smartcardNdrHeader
  cases type <;> grind

def NdrInside (s : List UInt8) : Except NdrStop (List UInt8 × Nat) → Prop
  | .error .assertion => False
  | .error _ => True
  | .ok (data, consumed) => consumed ≤ s.length ∧ data <:+: s

/-- The call stays inside of the stream unless an element has no size or the padding behind the
elements is missing. -/
theorem smartcard_ndr_read_inside_iff (s : NdrStream) (min unit : Nat) (type : NdrPtr) :
    NdrInside s.bytes (smartcardNdrRead s min unit type) ↔
      ∀ header len, smartcardNdrHeader s.bytes min type = .ok (header, len) → unit ≠ 0 ∧
        (header + len * unit ≤ s.bytes.length → len * unit + 3 < 2 ^ 32 ∧
          header + (len * unit + 3) / 4 * 4 ≤ s.bytes.length) := by
  have fits := s.fits
  unfold smartcardNdrRead
  rcases ndrHeader_spec s.bytes min type with short | less | ⟨header, len, ok, inside⟩
  · simp [short, NdrInside, bind, Except.bind]
  · simp [less, NdrInside, bind, Except.bind]
  suffices here : _ ↔ unit ≠ 0 ∧ (header + len * unit ≤ s.bytes.length → len * unit + 3 < 2 ^ 32 ∧
      header + (len * unit + 3) / 4 * 4 ≤ s.bytes.length) by simpa [ok, ok_bind] using here
  by_cases sized : unit = 0
  · simp [sized, NdrInside]
  have share :=
    Nat.div_lt_iff_lt_mul (x := s.bytes.length - header) (y := len) (Nat.pos_of_ne_zero sized)
  simp only [sized, if_false, share, ne_eq, not_false_eq_true, true_and]
  generalize len * unit = size
  split
  · simp only [NdrInside, true_iff]
    omega
  have part : (s.bytes.drop header).take size <:+: s.bytes :=
    ( take_prefix ..).isInfix.trans (drop_suffix ..).isInfix
  by_cases lt : size + 3 < 2 ^ 32
  · have pad := sizeAlign_eq lt
    split <;> simp only [NdrInside, part, and_true, false_iff] <;> omega
  · have pad := lt_sizeAlign (not_lt.mp lt) (by omega)
    split <;> simp only [NdrInside, part, and_true, false_iff] <;> omega

/-- One element of one byte, and no padding behind it. -/
theorem smartcard_ndr_read_not_inside :
    ¬ NdrInside [0x41] (smartcardNdrRead ⟨[0x41], 3, by decide⟩ 1 1 .fixed) ∧
      smartcardNdrRead ⟨[0x41], 0, by decide⟩ 1 1 .fixed = .error .assertion := by
  constructor
  · simp [smartcardNdrRead, smartcardNdrHeader, NdrInside, sizeAlign, ok_bind]
  · rfl

theorem ndrHeader_ptr (type : NdrPtr) (count : size < 2 ^ 32) (rest : List UInt8) :
    smartcardNdrHeader (smartcardNdrPtr size type ++ rest) size type = .ok r ↔
      r = ((smartcardNdrPtr size type).length, size) ∧ (type = .fixed → size ≤ rest.length) := by
  have value : leValue (leBytes 4 size) = size := leValue_leBytes_of_lt count
  have zero : leValue (leBytes 4 0) = 0 := by decide
  have fst (n : Nat) (rest : List UInt8) : (leBytes 4 n ++ rest).take 4 = leBytes 4 n :=
    take_left' (leBytes_length ..)
  have next (n : Nat) (rest : List UInt8) : (leBytes 4 n ++ rest).drop 4 = rest :=
    drop_left' (leBytes_length ..)
  have eight (s : List UInt8) : s.drop 8 = (s.drop 4).drop 4 := by rw [drop_drop]
  unfold smartcardNdrHeader
  cases type with
  | full =>
    simp only [smartcardNdrPtr, append_assoc, eight, fst, next, value, zero]
    grind [leBytes_length]
  | simple =>
    simp only [smartcardNdrPtr, fst, value]
    grind [leBytes_length]
  | fixed =>
    simp only [smartcardNdrPtr, Nat.mod_eq_of_lt count]
    grind

theorem ndrRead_ok_iff {s : NdrStream} {type : NdrPtr} {count : Nat} :
    smartcardNdrRead s count unit type = .ok (data, consumed) ↔
      ∃ header len, smartcardNdrHeader s.bytes count type = .ok (header, len) ∧
      0 < unit ∧ len * unit ≤ s.bytes.length - header ∧
        header + len * unit + sizeAlign (len * unit) ≤ s.bytes.length + s.spare ∧
        (s.bytes.drop header).take (len * unit) = data ∧
        header + len * unit + sizeAlign (len * unit) = consumed := by
  unfold smartcardNdrRead
  rw [bind_ok_iff, Prod.exists]
  refine exists₂_congr fun header len => and_congr_right fun _ => ?_
  dsimp only
  split
  · simp [*]
  have sized := Nat.pos_of_ne_zero ‹_›
  split
  · have short := (Nat.div_lt_iff_lt_mul sized).mp ‹_›
    simp [not_le.mpr short]
  have room := not_lt.mp (mt (Nat.div_lt_iff_lt_mul sized).mpr ‹_›)
  split
  · simp [not_le.mpr ‹_›]
  · simp [sized, room, not_lt.mp ‹_›]

def NdrReadsBack (data : List UInt8) (size unit : Nat) (type : NdrPtr) : Prop :=
  ∃ bytes, smartcardNdrWrite data size unit type = some bytes ∧ ∀ s : NdrStream, s.bytes = bytes →
    smartcardNdrRead s size unit type = .ok (data, bytes.length)

/-- The padding is computed from the number of elements and not from their bytes. -/
theorem smartcard_ndr_reads_back_iff {size unit : Nat} (type : NdrPtr) (positive : 0 < size)
    (count : size < 2 ^ 32) (element : unit < 2 ^ 32) (data : List UInt8)
    (whole : data.length = size * unit) :
    NdrReadsBack data size unit type ↔ 0 < unit ∧ size * unit + 3 < 2 ^ 32 ∧
    size * unit % 4 = size % 4 := by
  have bounded : size * unit < 2 ^ 64 := Nat.mul_lt_mul'' (c := 2 ^ 32) count element
  have ptr : (smartcardNdrPtr size type).length ≤ 12 := by cases type <;> simp [smartcardNdrPtr]
  have taken : (data.take (size * unit % 2 ^ 32)).length = size * unit % 2 ^ 32 := by
    rw [length_take, whole, min_eq_left (Nat.mod_le ..)]
  unfold NdrReadsBack smartcardNdrWrite
  rw [if_neg (Nat.ne_of_gt positive)]
  constructor
  · rintro ⟨bs, written, back⟩
    split at written
    next lt =>
      obtain rfl := Option.some.inj written
      have read := back ⟨_, 0, by simp only [length_append, taken, length_replicate]; omega⟩ rfl
      obtain ⟨_, len, head, sized, -, -, -, used⟩ := ndrRead_ok_iff.mp read
      obtain ⟨pair, -⟩ := (ndrHeader_ptr type count _).mp head
      obtain ⟨rfl, rfl⟩ := Prod.mk.inj pair
      have room := Nat.le_mul_of_pos_right len sized
      simp only [length_append, taken, length_replicate] at used
      have fits : len * unit + 3 < 2 ^ 32 := by
        by_contra large
        have := lt_sizeAlign (not_lt.mp large) bounded
        omega
      rw [sizeAlign_eq fits, sizeAlign_eq (by omega)] at used
      omega
    next => simp at written
  · rintro ⟨sized, lt, _⟩
    have room := Nat.le_mul_of_pos_right size sized
    have pad := @sizeAlign_eq size (by omega)
    have pad' := sizeAlign_eq lt
    have all : size * unit % 2 ^ 32 = size * unit := Nat.mod_eq_of_lt (by omega)
    refine ⟨_, if_pos (by omega), fun s bs => ?_⟩
    have head :
        smartcardNdrHeader s.bytes size type = .ok ((smartcardNdrPtr size type).length, size) := by
      rw [bs]
      refine (ndrHeader_ptr type count _).mpr ⟨rfl, fun _ => ?_⟩
      rw [length_append, taken]
      omega
    have length :
        s.bytes.length = (smartcardNdrPtr size type).length + (size * unit + sizeAlign size) := by
      rw [bs, length_append, length_append, taken, length_replicate, all]
    have elems : (s.bytes.drop (smartcardNdrPtr size type).length).take (size * unit) = data := by
      rw [bs, drop_left, all, ← whole, take_length, take_left]
    exact ndrRead_ok_iff.mpr ⟨_, size, head, sized, by omega, by omega, elems, by rw [← bs]; omega⟩

/-- One element of five bytes reads back. -/
theorem smartcard_ndr_reads_back_five : NdrReadsBack [1, 2, 3, 4, 5] 1 5 .full :=
  (smartcard_ndr_reads_back_iff .full (by decide) (by decide) (by decide) _ rfl).mpr (by decide)

/-- One element of two bytes: three bytes of padding are written, and two are read. -/
theorem smartcard_ndr_not_read_back : ¬ NdrReadsBack [0x41, 0] 1 2 .fixed := by
  rintro ⟨_, written, back⟩
  obtain rfl := Option.some.inj written
  have read := back ⟨[0x41, 0, 0, 0, 0], 0, by decide⟩ rfl
  cases read

end KvmServer.Utils
