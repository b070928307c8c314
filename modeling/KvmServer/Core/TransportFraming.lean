import KvmServer.Core.Transport

/-! # PDUs over partial reads

However a non-blocking transport cuts a sequence of well-formed PDUs into pieces, the calls return
the PDUs one after the other, and no call takes a byte of the PDU after the one it reads. -/

namespace KvmServer.Core
open Lib Winpr List

/-! ## Well-formed PDUs -/

inductive FramedPdu : List UInt8 → Prop where
  | tpkt {reserved high low : UInt8} {body : List UInt8}
    (length : high.toNat * 0x100 + low.toNat = body.length + 4)
      (least : 7 ≤ body.length + 4) : FramedPdu (0x03 :: reserved :: high :: low :: body)
  | fastPath {header length1 : UInt8} {body : List UInt8} (action : header ≠ 0x03)
    (short : length1.toNat < 0x80)
      (length : length1.toNat = body.length + 2) (least : 3 ≤ body.length + 2) :
      FramedPdu (header :: length1 :: body)
  | fastPathLong {header length1 length2 : UInt8} {body : List UInt8} (action : header ≠ 0x03)
      (long : 0x80 ≤ length1.toNat)
        (length : (length1.toNat - 0x80) * 0x100 + length2.toNat = body.length + 3)
      (least : 3 ≤ body.length + 3) : FramedPdu (header :: length1 :: length2 :: body)

theorem shiftLeft_or_byte (high : Nat) (low : UInt8) :
    high <<< 8 ||| low.toNat = high * 0x100 + low.toNat := by
  rw [Nat.or_comm, or_shiftLeft_eq high low.toNat_lt]
  omega

structure Announces (pdu : List UInt8) (header : Nat) : Prop where
  least : 0 < header
  most : header ≤ 4
  inside : header ≤ pdu.length
  silent : ∀ n < header, parseDefaultModePdu (pdu.take n) = 0
  length : ∀ n, header ≤ n → parseDefaultModePdu (pdu.take n) = pdu.length

variable {body : List UInt8} {s : BufferStream} {bio : Source}

theorem announces_tpkt {reserved high low : UInt8}
    (length : high.toNat * 0x100 + low.toNat = body.length + 4) (least : 7 ≤ body.length + 4) :
    Announces (0x03 :: reserved :: high :: low :: body) 4 where
  least := by decide
  most := by decide
  inside := by simp
  silent n few := by
    obtain rfl | rfl | rfl | rfl : n = 0 ∨ n = 1 ∨ n = 2 ∨ n = 3 := by omega
    all_goals rfl
  length n all := by
    obtain ⟨_, rfl⟩ := Nat.exists_eq_add_of_le' all
    have small := high.toNat_lt
    have smallLow := low.toNat_lt
    simp only [take_succ_cons, parseDefaultModePdu, if_true, shiftLeft_or_byte, length_cons]
    rw [if_neg (by omega), length]

variable {header len1 : UInt8} {pdu : List UInt8} {pdus : List (List UInt8)} (fuel : Nat)

theorem announces_fastPath (action : header ≠ 0x03)
    (short : len1.toNat < 0x80) (length : len1.toNat = body.length + 2) (least : 3 ≤ body.length + 2) :
    Announces (header :: len1 :: body) 2 where
  least := by decide
  most := by decide
  inside := by simp
  silent n few := by
    obtain rfl | rfl : n = 0 ∨ n = 1 := by omega
    · rfl
    · simp [parseDefaultModePdu, action]
  length n all := by
    obtain ⟨_, rfl⟩ := Nat.exists_eq_add_of_le' all
    simp only [take_succ_cons, parseDefaultModePdu, if_neg action, highBit_ne_zero_iff, length_cons]
    rw [if_neg (by omega), if_neg (by omega), length]

theorem announces_fastPathLong {length2 : UInt8} (action : header ≠ 0x03)
    (long : 0x80 ≤ len1.toNat) (length : (len1.toNat - 0x80) * 0x100 + length2.toNat = body.length + 3) :
    Announces (header :: len1 :: length2 :: body) 3 where
  least := by decide
  most := by decide
  inside := by simp
  silent n few := by
    obtain rfl | rfl | rfl : n = 0 ∨ n = 1 ∨ n = 2 := by omega
    · rfl
    · simp [parseDefaultModePdu, action]
    · simp only [take_succ_cons, take_zero, parseDefaultModePdu, if_neg action,
        highBit_ne_zero_iff, if_pos long]
  length n all := by
    obtain ⟨_, rfl⟩ := Nat.exists_eq_add_of_le' all
    have small := len1.toNat_lt
    have smallLow := length2.toNat_lt
    have low : len1.toNat % 0x80 = len1.toNat - 0x80 := by omega
    simp only [take_succ_cons, parseDefaultModePdu, if_neg action, highBit_ne_zero_iff,
      if_pos long, lowBits_toNat, low, shiftLeft_or_byte, length_cons]
    rw [if_neg (by omega), length]

theorem FramedPdu.announces (framed : FramedPdu pdu) : ∃ header, Announces pdu header := by
  cases framed with
  | tpkt len ge => exact ⟨4, announces_tpkt len ge⟩
  | fastPath action short len ge => exact ⟨2, announces_fastPath action short len ge⟩
  | fastPathLong action long len ge => exact ⟨3, announces_fastPathLong action long len⟩

section Stream
variable {s : BufferStream}

theorem streamEnsureCapacity_ok (s : BufferStream) (size : Nat) :
    ∃ s', streamEnsureCapacity s size = .ok s' ∧ s'.position = s.position ∧
    s'.bytes = s.bytes ∧ size ≤ s'.capacity := by
  unfold streamEnsureCapacity
  by_cases lt : s.capacity < size
  · have pos := s.positive
    obtain ⟨_, grown⟩ := @doubleCapacity_returns size size s.capacity pos (by omega) (by omega)
    rw [dif_pos lt]
    split
    · next fail =>
      rw [grown] at fail
      cases fail
    · next larger =>
      refine ⟨_, rfl, rfl, ?_, doubleCapacity_ge larger⟩
      apply block_ext
      intro k (_ : k < s.position)
      have inside := s.inside
      exact if_neg (by omega)
  · rw [dif_neg lt]
    exact ⟨s, rfl, rfl, rfl, not_lt.mp lt⟩

theorem streamEnsureRemaining_ok (s : BufferStream) (size : Nat) :
    ∃ s', streamEnsureRemaining s size = .ok s' ∧ s'.position = s.position ∧ s'.bytes = s.bytes ∧
      s'.position + size ≤ s'.capacity := by
  unfold streamEnsureRemaining
  split
  · obtain ⟨s', grown, position, bytes, _⟩ := streamEnsureCapacity_ok s (s.capacity + size)
    have inside := s.inside
    exact ⟨s', grown, position, bytes, by omega⟩
  · exact ⟨s, rfl, rfl, rfl, by omega⟩

theorem streamReceive_ok {data : List UInt8} (fits : s.position + data.length ≤ s.capacity) :
    ∃ s', streamReceive s data = .ok s' ∧ s'.position = s.position + data.length ∧
    s'.bytes = s.bytes ++ data := by
  refine ⟨_, dif_pos fits, rfl, ?_⟩
  have pre : block (blit s.buffer s.position data) 0 s.position = block s.buffer 0 s.position := by
    apply block_ext
    intro k _
    exact blit_of_outside _ _ _ (.inl (by omega))
  unfold BufferStream.bytes
  rw [block_add, zero_add, pre, block_blit]

end Stream

theorem readLayerLoop_unread (bio : Source) (bytes : Nat) :
    bio.unread = (transportReadLayerLoop fuel bio bytes).1 ++
    (transportReadLayerLoop fuel bio bytes).2.unread ∧
      (transportReadLayerLoop fuel bio bytes).1.length ≤ bytes := by
  induction fuel generalizing bio bytes with
  | zero => exact ⟨rfl, Nat.zero_le _⟩
  | succ fuel ih =>
    unfold transportReadLayerLoop
    have data := bio.read_data bytes
    have short := bio.read_length_le bytes
    split
    · exact ⟨rfl, Nat.zero_le _⟩
    dsimp only
    split
    · next =>
      obtain ⟨_, _⟩ | ⟨-, none⟩ := bio.read_status bytes
      · omega
      rw [none] at data
      exact ⟨data, Nat.zero_le _⟩
    obtain ⟨rest, _⟩ := ih (bio.read bytes).source (bytes - (bio.read bytes).data.length)
    refine ⟨?_, ?_⟩
    · rw [append_assoc, ← rest]
      exact data
    rw [length_append]
    omega

theorem readLayerLoop_spent (bio : Source) (bytes : Nat) :
    Source.Spent 0 bio (transportReadLayerLoop fuel bio bytes).2 ∧
      (0 < fuel → 0 < bytes → Source.Spent 1 bio (transportReadLayerLoop fuel bio bytes).2) := by
  induction fuel generalizing bio bytes with
  | zero => exact ⟨.refl bio, fun none => absurd none (lt_irrefl 0)⟩
  | succ fuel ih =>
    unfold transportReadLayerLoop
    split
    · next none => exact ⟨.refl bio, fun _ some => absurd none (Nat.ne_of_gt some)⟩
    · next some =>
      have fst := bio.read_spent (Nat.pos_of_ne_zero some)
      dsimp only
      split
      · exact ⟨fst.mono (Nat.zero_le 1), fun _ _ => fst⟩
      have rest := (ih (bio.read bytes).source (bytes - (bio.read bytes).data.length)).1
      have both := fst.trans rest
      exact ⟨both.mono (Nat.zero_le _), fun _ _ => both⟩

theorem readLayerBytes_ok {toRead : Nat} (some : 0 < toRead)
    (room : s.position + toRead ≤ s.capacity) :
    ∃ read data, transportReadLayerBytes s bio toRead = .ok read ∧
      bio.unread = data ++ read.bio.unread ∧ read.stream.position = s.position + data.length ∧
      read.stream.bytes = s.bytes ++ data ∧ Source.Spent 1 bio read.bio ∧
      (read.status = 1 ∧ data.length = toRead ∨ read.status = 0 ∧ data.length < toRead) := by
  obtain ⟨unread, few⟩ := readLayerLoop_unread toRead bio toRead
  have spent := (readLayerLoop_spent toRead bio toRead).2 some some
  unfold transportReadLayerBytes
  rw [← transportReadLayer] at unread few spent
  generalize transportReadLayer bio toRead = read at unread few spent ⊢
  dsimp only
  split
  · next none =>
    have empty := length_eq_zero_iff.mp none
    rw [empty] at unread
    exact ⟨_, [], rfl, unread, rfl, (append_nil _).symm, spent, .inr ⟨rfl, some⟩⟩
  obtain ⟨_, recv, position, bytes⟩ := @streamReceive_ok s read.1 (by omega)
  rw [recv, ok_bind]
  refine ⟨_, read.1, rfl, unread, position, bytes, spent, ?_⟩
  dsimp only
  split
  · exact .inl ⟨rfl, by omega⟩
  · exact .inr ⟨rfl, by omega⟩

theorem parsePdu_silent (silent : parseDefaultModePdu s.bytes = 0) :
    transportParsePdu s = ⟨0, true, streamSealLength s⟩ := by
  unfold BufferStream.bytes at silent
  simp [transportParsePdu, streamSealLength, silent]

/-! ## One PDU -/

/-- The bytes in the stream are the first ones of `pdu`, and the source has the others, with `later`
after them. -/
structure Holds (pdu later : List UInt8) (s : BufferStream) (bio : Source) : Prop where
  inside : s.position ≤ pdu.length
  bytes : s.bytes = pdu.take s.position
  unread : bio.unread = pdu.drop s.position ++ later

section Pdu
variable {pdu later : List UInt8} {s s' : BufferStream} {bio : Source}
variable (h : Holds pdu later s bio)
include h

theorem Holds.congr (position : s'.position = s.position) (bytes : s'.bytes = s.bytes) :
    Holds pdu later s' bio := by
  refine ⟨?_, ?_, ?_⟩
  · rw [position]
    exact h.inside
  · rw [bytes, position]
    exact h.bytes
  rw [position]
  exact h.unread

theorem Holds.seal : Holds pdu later (streamSealLength s) bio :=
  ⟨h.inside, h.bytes, h.unread⟩

theorem Holds.receive {data : List UInt8} {bio' : Source}
    (unread : bio.unread = data ++ bio'.unread) (few : s.position + data.length ≤ pdu.length)
    (position : s'.position = s.position + data.length) (bytes : s'.bytes = s.bytes ++ data) :
    Holds pdu later s' bio' := by
  have left : data.length ≤ (pdu.drop s.position).length := by
    rw [length_drop]
    omega
  have split : data ++ bio'.unread = pdu.drop s.position ++ later := unread.symm.trans h.unread
  have got : data = (pdu.drop s.position).take data.length := by
    have pre := congrArg (take data.length) split
    rwa [take_left, take_append_of_le_length left] at pre
  refine ⟨by omega, ?_, ?_⟩
  · rw [bytes, position, h.bytes, take_add, ← got]
  have back := congrArg (drop data.length) split
  rwa [drop_left, drop_append_of_le_length left, drop_drop, ← position] at back

theorem readLayerBytes_holds {toRead : Nat} (some : 0 < toRead)
    (inside : s.position + toRead ≤ pdu.length) (room : s.position + toRead ≤ s.capacity) :
    ∃ read, transportReadLayerBytes s bio toRead = .ok read ∧ Holds pdu later read.stream read.bio ∧
      Source.Spent 1 bio read.bio ∧ (read.status = 1 ∧ read.stream.position = s.position + toRead ∨
        read.status = 0 ∧ read.stream.position < s.position + toRead) := by
  obtain ⟨read, data, done, unread, position, bytes, spent, status⟩ :=
    @readLayerBytes_ok s bio toRead some room
  exact ⟨read, done, h.receive unread (by omega) position bytes, spent, by omega⟩

theorem parsePdu_length {header : Nat} (announces : Announces pdu header) (all : header ≤ s.position) :
    (transportParsePdu s).status = pdu.length ∧ (transportParsePdu s).stream = streamSealLength s := by
  have parsed : parseDefaultModePdu (block s.buffer 0 s.position) = pdu.length := by
    rw [← BufferStream.bytes, h.bytes]
    exact announces.length _ all
  have ge := announces.least
  have inside := h.inside
  unfold transportParsePdu
  dsimp only [streamSealLength]
  rw [parsed, if_neg (by omega), if_neg (by omega)]
  exact ⟨rfl, rfl⟩

def HeaderRead.Holds (pdu later : List UInt8) (bio : Source) (moved : Nat) : HeaderRead → Prop
  | .returned read =>
    read.status = 0 ∧ Core.Holds pdu later read.stream read.bio ∧ read.stream.position < pdu.length ∧
      Source.Spent 1 bio read.bio
  | .parsed read =>
    read.status = pdu.length ∧ Core.Holds pdu later read.stream read.bio ∧
      (read.stream.position = moved ∧ Source.Spent 0 bio read.bio ∨ Source.Spent 1 bio read.bio)

theorem readHeader_holds {header : Nat} (announces : Announces pdu header) {fuel : Nat}
    (enough : header < s.position + fuel) (unf : 0 < fuel) :
    ∃ res, transportReadHeader fuel s bio = .ok res ∧ res.Holds pdu later bio s.position := by
  induction fuel generalizing s bio with
  | zero => exact absurd unf (lt_irrefl 0)
  | succ fuel ih =>
    unfold transportReadHeader
    by_cases few : s.position < header
    · obtain ⟨s₁, ensured, position, bytes, room⟩ := streamEnsureRemaining_ok (streamSealLength s) 1
      have position : s₁.position = s.position := position
      have inside := announces.inside
      obtain ⟨_, done, kept, spent, status⟩ :=
        readLayerBytes_holds (h.seal.congr position bytes) Nat.one_pos (by omega) room
      have silent := announces.silent _ few
      rw [← h.bytes] at silent
      simp only [parsePdu_silent silent, and_self, if_true, ensured, done, ok_bind]
      obtain ⟨one, _⟩ | ⟨none, _⟩ := status
      · -- one more byte of the header
        obtain ⟨res, rest, left⟩ := ih kept (by omega) (by omega)
        rw [if_neg (by omega)]
        refine ⟨res, rest, ?_⟩
        cases res with
        | returned last =>
          obtain ⟨zero, held, unf, more⟩ := left
          exact ⟨zero, held, unf, (spent.trans more).mono (by omega)⟩
        | parsed last =>
          obtain ⟨len, held, ⟨-, more⟩ | more⟩ := left
          · exact ⟨len, held, .inr (spent.trans more)⟩
          · exact ⟨len, held, .inr ((spent.trans more).mono (by omega))⟩
      · rw [if_pos (by omega)]
        exact ⟨_, rfl, none, kept, by omega, spent⟩
    · obtain ⟨len, stream⟩ := parsePdu_length h announces (not_lt.mp few)
      have ge := announces.least
      have inside := announces.inside
      rw [if_neg (by omega), stream]
      exact ⟨_, rfl, len, h.seal, .inl ⟨rfl, .refl bio⟩⟩

/-- A read that returned `pdu` and left `later` in the source. -/
structure Delivered (read : TransportRead) (pdu later : List UInt8) : Prop where
  status : read.status = pdu.length
  position : read.stream.position = 0
  length : read.stream.length = pdu.length
  bytes : block read.stream.buffer 0 read.stream.length = pdu
  unread : read.bio.unread = later

theorem Holds.delivered (all : s.position = pdu.length) :
    Delivered (transportFinishPdu s bio) pdu later := by
  have bytes := h.bytes
  have unread := h.unread
  rw [all, take_length, BufferStream.bytes, all] at bytes
  rw [all, drop_length, nil_append] at unread
  refine ⟨congrArg Nat.cast all, rfl, all, ?_, unread⟩
  show block s.buffer 0 s.position = pdu
  rw [all, bytes]

/-- A call returns the PDU, or 0 with the bytes it has got in the stream. -/
def TransportRead.Continues (pdu later : List UInt8) (bio : Source) (read : TransportRead) : Prop :=
  Source.Spent 1 bio read.bio ∧
    (Delivered read pdu later ∨
      read.status = 0 ∧ Core.Holds pdu later read.stream read.bio ∧ read.stream.position < pdu.length)

theorem readBody_holds (pending : s.position < pdu.length) :
    ∃ read, transportReadBody s bio pdu.length = .ok read ∧ read.Continues pdu later bio := by
  obtain ⟨s₁, ensured, position, bytes, _⟩ := streamEnsureCapacity_ok s pdu.length
  obtain ⟨read, done, kept, spent, status⟩ := readLayerBytes_holds (h.congr position bytes)
    (by omega : 0 < pdu.length - s₁.position) (by omega) (by omega)
  unfold transportReadBody
  rw [ensured, ok_bind, if_neg (by omega), if_pos (by omega), done, ok_bind]
  obtain ⟨_, _⟩ | ⟨none, _⟩ := status
  · rw [if_neg (by omega)]
    exact ⟨_, rfl, spent, .inl (kept.delivered (by omega))⟩
  rw [if_pos (by omega)]
  exact ⟨read, rfl, spent, .inr ⟨none, kept, by omega⟩⟩

theorem readBody_whole (all : s.position = pdu.length) :
    ∃ read, transportReadBody s bio pdu.length = .ok read ∧ Delivered read pdu later ∧
    read.bio = bio := by
  obtain ⟨_, ensured, position, bytes, _⟩ := streamEnsureCapacity_ok s pdu.length
  unfold transportReadBody
  rw [ensured, ok_bind, if_neg (by omega), if_neg (by omega)]
  exact ⟨_, rfl, (h.congr position bytes).delivered (by omega), rfl⟩

theorem readPdu_continues (framed : FramedPdu pdu)
    (pending : s.position < pdu.length) : ∃ read, transportReadPdu s bio = .ok read ∧
    read.Continues pdu later bio := by
  obtain ⟨header, announces⟩ := framed.announces
  have most := announces.most
  obtain ⟨res, done, left⟩ :=
    @readHeader_holds pdu later s bio h header announces 5 (by omega) (by decide)
  unfold transportReadPdu
  rw [done, ok_bind]
  cases res with
  | returned read =>
    obtain ⟨zero, held, unf, spent⟩ := left
    exact ⟨read, rfl, spent, .inr ⟨zero, held, unf⟩⟩
  | parsed read =>
    obtain ⟨len, held, spent⟩ := left
    dsimp only
    rw [if_neg (by omega), len, Int.toNat_natCast]
    by_cases unf : read.stream.position < pdu.length
    · obtain ⟨last, read, more, outcome⟩ := readBody_holds held unf
      obtain ⟨-, before⟩ | before := spent
      · exact ⟨last, read, before.trans more, outcome⟩
      · exact ⟨last, read, (before.trans more).mono (by omega), outcome⟩
    -- nothing is left to read, so the header loop has read something
    have inside := held.inside
    obtain ⟨last, read, delivers, same⟩ := readBody_whole held (by omega)
    obtain ⟨_, -⟩ | before := spent
    · omega
    · exact ⟨last, read, same ▸ before, .inl delivers⟩

end Pdu

/-! ## All PDUs -/

/-- The reads returned the first PDUs in order, and `left` are the others. -/
inductive Delivers : List TransportRead → List (List UInt8) → List (List UInt8) → Prop where
  | none {left : List (List UInt8)} : Delivers [] left left
  | next {read : TransportRead} {reads : List TransportRead} {pdu : List UInt8}
    {pdus left : List (List UInt8)}
      (first : Delivered read pdu pdus.flatten) (rest : Delivers reads pdus left) :
      Delivers (read :: reads) (pdu :: pdus) left

/-- Where the stream stands between two calls: inside of the first PDU that is left. -/
inductive Between : List (List UInt8) → BufferStream → Source → Prop where
  | done {s : BufferStream} {bio : Source} (start : s.position = 0) (unread : bio.unread = []) :
    Between [] s bio
  | inside {pdu : List UInt8} {pdus : List (List UInt8)} {s : BufferStream} {bio : Source}
      (holds : Holds pdu pdus.flatten s bio) (pending : s.position < pdu.length) :
        Between (pdu :: pdus) s bio

theorem FramedPdu.length_pos (framed : FramedPdu pdu) : 0 < pdu.length := by
  cases framed <;> simp

theorem between_start (framed : ∀ pdu ∈ pdus, FramedPdu pdu) {s : BufferStream}
    {bio : Source} (st : s.position = 0)
    (unread : bio.unread = pdus.flatten) : Between pdus s bio := by
  cases pdus with
  | nil => exact .done st unread
  | cons pdu pdus =>
    have some := (framed pdu mem_cons_self).length_pos
    refine .inside ⟨by omega, ?_, ?_⟩ (by omega)
    · rw [BufferStream.bytes, st]
      rfl
    · rw [unread, st, drop_zero, flatten_cons]

theorem transportReadPdu_done (st : s.position = 0) (unread : bio.unread = []) :
    ∃ read, transportReadPdu s bio = .ok read ∧ read.status = 0 ∧ read.stream.position = 0 ∧
      read.bio.unread = [] ∧ Source.Spent 1 bio read.bio := by
  obtain ⟨s₁, ensured, position, -, room⟩ := streamEnsureRemaining_ok (streamSealLength s) 1
  obtain ⟨read, data, got, split, position', -, spent, status⟩ :=
    @readLayerBytes_ok s₁ bio 1 Nat.one_pos room
  obtain ⟨rfl, still⟩ := append_eq_nil_iff.mp (split.symm.trans unread)
  have zero : read.status = 0 := by simpa using status
  have silent : parseDefaultModePdu s.bytes = 0 := by
    rw [BufferStream.bytes, st]
    rfl
  refine ⟨read, ?_, zero, position'.trans (position.trans st), still, spent⟩
  unfold transportReadPdu transportReadHeader
  simp only [parsePdu_silent silent, and_self, if_true, ensured, ok_bind, got]
  rw [if_pos (by omega)]
  rfl

variable {supply : BufferStream → BufferStream}

theorem transportCall_between (fresh : ∀ s, s.position = 0 → (supply s).position = 0)
    (framed : ∀ pdu ∈ pdus, FramedPdu pdu) (between : Between pdus s bio)
    (returned : List TransportRead) :
    ∃ s' bio' reads left, transportCall supply ⟨s, bio, returned⟩ = .ok ⟨s', bio', returned ++ reads⟩ ∧
      Delivers reads pdus left ∧ Between left s' bio' ∧ left <:+ pdus ∧ Source.Spent 1 bio bio' := by
  unfold transportCall
  cases between with
  | done st unread =>
    obtain ⟨read, done, zero, still, empty, spent⟩ := transportReadPdu_done st unread
    rw [done, ok_bind, if_neg (by omega), if_pos zero]
    refine ⟨read.stream, read.bio, [], [], ?_, .none, .done still empty, suffix_rfl, spent⟩
    rw [append_nil]
  | @inside pdu later _ _ holds pending =>
    obtain ⟨read, done, spent, delivers | ⟨zero, kept, unf⟩⟩ :=
      readPdu_continues holds (framed pdu mem_cons_self) pending
    · have status := delivers.status
      rw [done, ok_bind, if_neg (by omega), if_neg (by omega)]
      refine ⟨supply read.stream, read.bio, [read], later, rfl, .next delivers .none,
        ?_, suffix_cons _ _, spent⟩
      exact between_start (fun pdu mem => framed pdu (mem_cons_of_mem _ mem))
        (fresh _ delivers.position) delivers.unread
    rw [done, ok_bind, if_neg (by omega), if_pos zero]
    refine ⟨read.stream, read.bio, [], pdu :: later, ?_, .none, .inside kept unf, suffix_rfl, spent⟩
    rw [append_nil]

theorem Delivers.append {fst second : List TransportRead} {mid left : List (List UInt8)}
    (pre : Delivers fst pdus mid) (after : Delivers second mid left) :
    Delivers (fst ++ second) pdus left := by
  induction pre with
  | none => exact after
  | next delivers rest ih => exact .next delivers (ih after)

theorem transportCalls_between (fresh : ∀ s, s.position = 0 → (supply s).position = 0)
    (framed : ∀ pdu ∈ pdus, FramedPdu pdu) (between : Between pdus s bio)
    (calls : Nat) (returned : List TransportRead) :
    ∃ s' bio' reads left,
    transportCalls supply calls ⟨s, bio, returned⟩ = .ok ⟨s', bio', returned ++ reads⟩ ∧
      Delivers reads pdus left ∧ Between left s' bio' ∧ Source.Spent calls bio bio' := by
  induction calls generalizing s bio pdus returned with
  | zero =>
    refine ⟨s, bio, [], pdus, ?_, .none, between, .refl bio⟩
    rw [append_nil]
    rfl
  | succ calls ih =>
    obtain ⟨_, _, fst, _, called, pre, held, fewer, one⟩ :=
      transportCall_between fresh framed between returned
    obtain ⟨s₂, bio₂, second, left, rest, after, kept, more⟩ :=
      ih (fun pdu mem => framed pdu (fewer.subset mem)) held (returned ++ fst)
    refine ⟨s₂, bio₂, fst ++ second, left, ?_, pre.append after, kept, ?_⟩
    · rw [transportCalls, called, ok_bind, rest, append_assoc]
    rw [add_comm]
    exact one.trans more

/-- However the source cuts the PDUs into pieces, the calls return the first of them in order and
leave all later bytes in the source; and all of them, if the source and the caller go on for long
enough. -/
theorem transport_reads_pdus {pdus : List (List UInt8)} (framed : ∀ pdu ∈ pdus, FramedPdu pdu)
    (events : List SourceEvent) {s : BufferStream} (start : s.position = 0)
    (fresh : ∀ s, s.position = 0 → (supply s).position = 0) (calls : Nat) :
    ∃ session left, transportCalls supply calls ⟨s, ⟨pdus.flatten, events⟩, []⟩ = .ok session ∧
      Delivers session.returned pdus left ∧ Between left session.stream session.bio ∧
      (Source.Enough ⟨pdus.flatten, events⟩ → events.length ≤ calls → left = []) := by
  obtain ⟨_, bio', _, left, run, delivers, between, spent⟩ :=
    transportCalls_between fresh framed
      (@between_start _ framed _ ⟨pdus.flatten, events⟩ start rfl) calls []
  refine ⟨_, left, run, delivers, between, ?_⟩
  intro room heard
  have fin : bio'.unread = [] := spent.unread_eq_nil room heard
  cases between with
  | done => rfl
  | inside holds pending =>
    -- a PDU that is not complete has bytes in the source
    have missing := congrArg List.length (fin.symm.trans holds.unread)
    rw [List.length_append, List.length_drop, List.length_nil] at missing
    omega

def twoPdus : List (List UInt8) := [[0x03, 0, 0, 7, 2, 0xF0, 0x80], [0x00, 0x80, 3]]

theorem twoPdus_framed : ∀ pdu ∈ twoPdus, FramedPdu pdu := by
  intro pdu mem
  obtain rfl | rfl := by simpa [twoPdus] using mem
  · exact .tpkt (by decide) (by decide)
  · exact .fastPathLong (by decide) (by decide) (by decide) (by decide)

/-- The bytes of two PDUs come in pieces of two, and the stream has to grow. -/
theorem transport_reads_pdus_two : ∃ session,
    transportCalls id 20 ⟨⟨listMem 0 [], 0, 1, 1, by decide, by decide⟩,
          ⟨twoPdus.flatten,
            (List.replicate 10 [.ready ⟨2, by decide⟩, .blocked ⟨-1, by decide⟩]).flatten⟩, []⟩ =
        .ok session ∧
      Delivers session.returned twoPdus [] := by
  obtain ⟨session, _, run, delivers, -, all⟩ := @transport_reads_pdus id twoPdus twoPdus_framed
    (List.replicate 10 [.ready ⟨2, by decide⟩, .blocked ⟨-1, by decide⟩]).flatten
    ⟨listMem 0 [], 0, 1, 1, by decide, by decide⟩ rfl (fun _ st => st) 20
  have room : Source.Enough
      ⟨twoPdus.flatten,
        (List.replicate 10 [.ready ⟨2, by decide⟩, .blocked ⟨-1, by decide⟩]).flatten⟩ := by
    exact Nat.le_refl 10
  rw [all room (Nat.le_refl 20)] at delivers
  exact ⟨session, run, delivers⟩

/-! ## How much is buffered -/

/-- The length of a `TSRequest`; anything that does not begin with 0x30 has none. -/
def parseNlaModePdu : List UInt8 → Int
  | [] => 0
  | typeEncoding :: bytes =>
    if typeEncoding = 0x30 then
      match bytes with
      | [] => 0
      | lengthEncoding :: bytes =>
        if lengthEncoding &&& 0x80 ≠ 0 then
          if lengthEncoding &&& 0x7F = 1 then
            match bytes with
            | [] => 0
            | length :: _ => length.toNat + 3
          else if lengthEncoding &&& 0x7F = 2 then
            match bytes with
            | high :: low :: _ => (high.toNat <<< 8 ||| low.toNat : Nat) + 4
            | _ => 0
          else -1
        else lengthEncoding.toNat + 2
    else 0

def parseModePdu (nlaMode : Bool) : List UInt8 → Int :=
    if nlaMode then parseNlaModePdu else parseDefaultModePdu

inductive PduBuffered where
  | waits (buffered : List UInt8)
  | complete (buffered : List UInt8)
  | refused

def readSentBody (pduLength : Int) (buffered sent : List UInt8) : PduBuffered :=
  if pduLength < buffered.length then .refused
  else
    let missing := pduLength.toNat - buffered.length
    if sent.length < missing then .waits (buffered ++ sent)
      else .complete (buffered ++ sent.take missing)

/-- `transport_default_read_pdu` over all its calls for a PDU: what is buffered, and what the peer
sends. -/
def transportReadSent (parse : List UInt8 → Int) : List UInt8 → List UInt8 → PduBuffered
  | buffered, sent =>
    if parse buffered = 0 then
      match sent with
      | [] => .waits buffered
      | byte :: sent => transportReadSent parse (buffered ++ [byte]) sent
    else readSentBody (parse buffered) buffered sent

def PduBuffered.Bounded : PduBuffered → Prop
  | .waits buffered | .complete buffered => buffered.length ≤ 65539
  | .refused => True

variable {parse : List UInt8 → Int} {buffered sent bytes : List UInt8}

theorem readSentBody_bounded {pduLen : Int} (le : pduLen ≤ 65539) :
    (readSentBody pduLen buffered sent).Bounded := by
  unfold readSentBody
  split
  · trivial
  dsimp only
  split
  all_goals
    simp only [PduBuffered.Bounded, length_append, length_take]
    omega

theorem readSent_bounded (le : ∀ bytes, parse bytes ≤ 65539)
    (done : ∀ more rest, sent = more ++ rest → 4 ≤ (buffered ++ more).length →
      parse (buffered ++ more) ≠ 0) :
    (transportReadSent parse buffered sent).Bounded := by
  -- `settled`: the loop does not ask for more than four bytes
  have here := done [] sent rfl
  rw [append_nil] at here
  induction sent generalizing buffered with
  | nil =>
    unfold transportReadSent
    split
    · simp only [PduBuffered.Bounded]
      omega
    · exact readSentBody_bounded (le _)
  | cons byte sent ih =>
    unfold transportReadSent
    split
    · have later : ∀ more rest, sent = more ++ rest → 4 ≤ (buffered ++ [byte] ++ more).length →
          parse (buffered ++ [byte] ++ more) ≠ 0 := by
        intro more rest same
        rw [append_assoc]
        exact done (byte :: more) rest (by rw [same]; rfl)
      exact ih later (by simpa using later [] sent rfl)
    · exact readSentBody_bounded (le _)

theorem readSent_waits (silent : ∀ more rest, sent = more ++ rest → parse (buffered ++ more) = 0) :
    transportReadSent parse buffered sent = .waits (buffered ++ sent) := by
  induction sent generalizing buffered with
  | nil =>
    have here : parse buffered = 0 := by simpa using silent [] _ rfl
    simp [transportReadSent, here]
  | cons byte sent ih =>
    have here : parse buffered = 0 := by simpa using silent [] _ rfl
    have later : ∀ more rest, sent = more ++ rest → parse (buffered ++ [byte] ++ more) = 0 := by
      intro more rest same
      rw [append_assoc]
      exact silent (byte :: more) rest (by rw [same]; rfl)
    unfold transportReadSent
    rw [if_pos here]
    dsimp only
    rw [ih later, append_assoc]
    rfl

theorem parseDefaultModePdu_append (known : parseDefaultModePdu bytes ≠ 0) (more : List UInt8) :
    parseDefaultModePdu (bytes ++ more) = parseDefaultModePdu bytes := by
  unfold parseDefaultModePdu at *
  grind

theorem transportReadSent_known (known : parse buffered ≠ 0) :
    transportReadSent parse buffered sent = readSentBody (parse buffered) buffered sent := by
  unfold transportReadSent
  rw [if_neg known]

theorem readSentBody_append {n : Nat} {data : List UInt8}
    (few : buffered.length + data.length ≤ n) :
    readSentBody n (buffered ++ data) sent = readSentBody n buffered (data ++ sent) := by
  have missing : data.length + sent.length < n - buffered.length ↔
      sent.length < n - (buffered.length + data.length) := by omega
  have enough : ¬(n : Int) < (buffered.length + data.length : Nat) := by omega
  have before : ¬(n : Int) < buffered.length := by omega
  have all : data.take (n - buffered.length) = data := take_of_length_le (by omega)
  simp only [readSentBody, length_append, Int.toNat_natCast, missing, enough, before, if_false,
    take_append, all, Nat.sub_sub, append_assoc]

/-- What one call makes of the bytes, when all calls make `all` of them. -/
def TransportRead.Meets (all : PduBuffered) (read : TransportRead) : Prop :=
  read.status < 0 ∧ all = .refused ∨
    read.status = 0 ∧ all = transportReadSent parseDefaultModePdu read.stream.bytes read.bio.unread ∨
    0 < read.status ∧ all = .complete (block read.stream.buffer 0 read.stream.length)

def HeaderRead.Meets (all : PduBuffered) : HeaderRead → Prop
  | .returned read => read.Meets all
  | .parsed read => all = readSentBody read.status read.stream.bytes read.bio.unread ∧
      read.status ≠ 0 ∧ (0 < read.status → parseDefaultModePdu read.stream.bytes = read.status)

theorem parsePdu_meets (known : parseDefaultModePdu s.bytes ≠ 0) :
    HeaderRead.Meets (readSentBody (parseDefaultModePdu s.bytes) s.bytes bio.unread)
      (.parsed ⟨(transportParsePdu s).status, (transportParsePdu s).stream, bio⟩) := by
  have length : s.bytes.length = s.position := block_length ..
  rw [transportParsePdu, show block (streamSealLength s).buffer 0 (streamSealLength s).length =
    s.bytes from rfl]
  split
  · exact ⟨rfl, known, fun _ => rfl⟩
  split
  · next more =>
    have refused : parseDefaultModePdu s.bytes < s.bytes.length := length.symm ▸ more
    exact ⟨(if_pos refused).trans (if_pos (show (-1 : Int) < s.bytes.length by omega)).symm,
      Int.negSucc_ne_zero 0, fun positive => absurd positive (show ¬(0 : Int) < -1 by decide)⟩
  · exact ⟨rfl, known, fun _ => rfl⟩

theorem readHeader_meets {fuel : Nat} {res : HeaderRead}
    (done : transportReadHeader fuel s bio = .ok res) :
    res.Meets (transportReadSent parseDefaultModePdu s.bytes bio.unread) := by
  induction fuel generalizing s bio with
  | zero => cases done
  | succ fuel ih =>
    rw [transportReadHeader] at done
    by_cases silent : parseDefaultModePdu s.bytes = 0
    · obtain ⟨s₁, ensured, -, bytes, room⟩ := streamEnsureRemaining_ok (streamSealLength s) 1
      obtain ⟨read, data, got, unread, -, all, -, ⟨one, length⟩ | ⟨none, few⟩⟩ :=
        @readLayerBytes_ok s₁ bio 1 Nat.one_pos room
      all_goals
        simp only [parsePdu_silent silent, and_self, if_true, ensured, got, ok_bind] at done
        rw [bytes] at all
      · obtain ⟨byte, rfl⟩ := length_eq_one_iff.mp length
        rw [if_neg (by omega)] at done
        have later := ih done
        unfold transportReadSent
        rw [unread, if_pos silent]
        rwa [all] at later
      · cases eq_nil_of_length_eq_zero (by omega : data.length = 0)
        rw [if_pos (by omega)] at done
        cases done
        refine .inr (.inl ⟨none, ?_⟩)
        rw [all, unread, nil_append, append_nil]
        rfl
    · rw [transportReadSent_known silent]
      have parsed := @parsePdu_meets s bio silent
      rw [if_neg fun zero => parsed.2.1 zero.1] at done
      cases done
      exact parsed

theorem readBody_meets {n : Nat} {read : TransportRead} (positive : 0 < n)
    (known : parseDefaultModePdu s.bytes = n) (done : transportReadBody s bio n = .ok read) :
    read.Meets (readSentBody n s.bytes bio.unread) := by
  have length : s.bytes.length = s.position := block_length ..
  obtain ⟨s₁, ensured, position, bytes, room⟩ := streamEnsureCapacity_ok s n
  rw [transportReadBody, ensured, ok_bind] at done
  by_cases more : s₁.position > n
  · rw [if_pos more] at done
    cases done
    exact .inl ⟨Int.negSucc_lt_zero 0, if_pos (by omega)⟩
  rw [if_neg more] at done
  have whole (data rest : List UInt8) (missing : data.length = n - s.position) :
      readSentBody n s.bytes (data ++ rest) = .complete (s.bytes ++ data) := by
    rw [readSentBody, if_neg (by omega), Int.toNat_natCast, length, ← missing, length_append]
    dsimp only
    rw [if_neg (by omega), take_left]
  split at done
  · obtain ⟨got, data, res, unread, position', all, -, ⟨one, few⟩ | ⟨none, few⟩⟩ :=
      @readLayerBytes_ok s₁ bio (n - s₁.position) (by omega) (by omega)
    all_goals rw [res, ok_bind] at done
    · rw [if_neg (by omega)] at done
      cases done
      refine .inr (.inr ⟨show 0 < (got.stream.position : Int) by omega, ?_⟩)
      rw [unread, whole data _ (by omega), ← bytes, ← all]
      rfl
    · rw [if_pos (by omega)] at done
      cases done
      have stays := parseDefaultModePdu_append (by omega : parseDefaultModePdu s.bytes ≠ 0) data
      refine .inr (.inl ⟨none, ?_⟩)
      rw [all, bytes, transportReadSent_known (by omega), stays, known, unread,
        readSentBody_append (by omega)]
  · cases done
    have all := whole [] bio.unread (by rw [length_nil]; omega)
    rw [nil_append, append_nil] at all
    exact .inr (.inr ⟨show 0 < (s₁.position : Int) by omega, all.trans (congrArg _ bytes.symm)⟩)

/-- A call refuses or completes what all calls for a PDU refuse or complete; where it waits, the
calls after it come to the same. -/
theorem readPdu_meets {read : TransportRead} (done : transportReadPdu s bio = .ok read) :
    read.Meets (transportReadSent parseDefaultModePdu s.bytes bio.unread) := by
  obtain ⟨res, header, done⟩ := bind_ok_iff.mp done
  have meets := readHeader_meets header
  cases res with
  | returned read =>
    cases done
    exact meets
  | parsed last =>
    obtain ⟨all, known, positive⟩ := meets
    dsimp only at done
    split at done
    · cases done
      refine .inl ⟨Int.negSucc_lt_zero 0, all.trans (if_pos (by omega))⟩
    · have length := Int.toNat_of_nonneg (not_lt.mp ‹_›)
      rw [all, ← length]
      exact readBody_meets (by omega) (by omega) done

theorem parseDefaultModePdu_le : parseDefaultModePdu bytes ≤ 65539 := by
  unfold parseDefaultModePdu
  dsimp only
  repeat' split
  all_goals omega

theorem parseNlaModePdu_le : parseNlaModePdu bytes ≤ 65539 := by
  unfold parseNlaModePdu
  grind [shiftLeft_or_byte, UInt8.toNat_lt]

theorem parseNlaModePdu_silent (other : bytes.head? ≠ some 0x30) : parseNlaModePdu bytes = 0 := by
  unfold parseNlaModePdu
  grind

-- In both modes the fourth byte is the last that the length may need.
theorem parseModePdu_settled (nlaMode : Bool) (four : 4 ≤ bytes.length)
    (tag : nlaMode → bytes.head? = some 0x30) :
    parseModePdu nlaMode bytes ≠ 0 := by
  match bytes, four with
  | _ :: _ :: _ :: _ :: _, _ =>
    cases nlaMode
    · simp only [parseModePdu, Bool.false_eq_true, if_false, parseDefaultModePdu]
      grind
    simp only [parseModePdu, parseNlaModePdu, if_true]
    grind

theorem transportReadSent_nla (other : sent.head? ≠ some 0x30) :
    transportReadSent (parseModePdu true) [] sent = .waits sent := by
  apply readSent_waits
  intro more _ _
  apply parseNlaModePdu_silent
  cases more <;> simp_all

/-- What is buffered for one PDU is bounded, except that in NLA mode a first byte other than 0x30 is
never refused. -/
theorem transport_read_bounded_iff (nlaMode : Bool) (sent : List UInt8) :
    (transportReadSent (parseModePdu nlaMode) [] sent).Bounded ↔
      nlaMode = false ∨ sent.head? = some 0x30 ∨ sent.length ≤ 65539 := by
  by_cases unlike : nlaMode = true ∧ sent.head? ≠ some 0x30
  · obtain ⟨rfl, unlike⟩ := unlike
    rw [transportReadSent_nla unlike]
    simp [PduBuffered.Bounded, unlike]
  have bounded : (transportReadSent (parseModePdu nlaMode) [] sent).Bounded := by
    apply readSent_bounded
    · intro _
      cases nlaMode
      · exact parseDefaultModePdu_le
      · exact parseNlaModePdu_le
    intro more _ _ four
    refine parseModePdu_settled nlaMode four fun nla => ?_
    cases more <;> simp_all
  grind

/-- Zeros are no header in NLA mode, and all of them are buffered. -/
theorem transport_read_unbounded :
    ¬(transportReadSent (parseModePdu true) [] (replicate 65540 0)).Bounded := by
  have other : (replicate 65540 (0 : UInt8)).head? ≠ some 0x30 := by rw [head?_replicate]; decide
  rw [transportReadSent_nla other, PduBuffered.Bounded, length_replicate]
  decide

end KvmServer.Core
