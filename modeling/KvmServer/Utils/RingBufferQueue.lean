import KvmServer.Utils.RingBuffer
import KvmServer.Lib.Refinement

/-! # The ring buffer as a queue

The queue lies in one piece in front of a free byte, or it reaches the end of the buffer and goes on at
its front.  Equal heads mean an empty queue in the first layout and a full buffer in the second. -/

namespace KvmServer.Utils
open Lib List Nat

/-! ## Memory -/

variable (fresh : Nat → UInt8)

@[simp] theorem freshBytes_length (st n : Nat) : (freshBytes fresh st n).length = n := by
  simp [freshBytes]

@[simp] theorem realloc_length (buffer : List UInt8) (n : Nat) :
    (realloc fresh buffer n).length = n := by
  rw [realloc, length_append, length_take, freshBytes_length]
  omega

theorem copyTo_append {a old b data : List UInt8} (same : old.length = data.length) :
    copyTo (a ++ (old ++ b)) a.length data = some (a ++ (data ++ b)) := by
  rw [copyTo, if_pos (by simp; omega), take_left, ← append_assoc a old,
    drop_left' (by rw [length_append, same]), append_assoc]

theorem copyTo_front {old b data : List UInt8} (same : old.length = data.length) :
    copyTo (old ++ b) 0 data = some (data ++ b) :=
  copyTo_append (a := []) same

theorem copyTo_nil (b : List UInt8) : copyTo b 0 [] = some b :=
  @copyTo_front [] b [] rfl

theorem bytesAt_append (a x b : List UInt8) : bytesAt (a ++ (x ++ b)) a.length x.length = some x := by
  rw [bytesAt, if_pos (by simp), drop_left, take_left]

theorem bytesAt_front (x b : List UInt8) : bytesAt (x ++ b) 0 x.length = some x :=
  bytesAt_append [] x b

theorem length_parts {l a b c : List UInt8} (parts : l = a ++ (b ++ c)) :
    l.length = a.length + (b.length + c.length) := by
  rw [parts, length_append, length_append]

/-! ## The layouts -/

inductive Layout (rb : RingBuffer) (q : List UInt8) : Prop where
  | linear (before after : List UInt8) (room : after ≠ [])
      (buffer : rb.buffer = before ++ (q ++ after)) (readPtr : rb.readPtr = before.length)
      (writePtr : rb.writePtr = before.length + q.length)
  | wrapped (first second gap : List UInt8) (some : first ≠ []) (queue : q = first ++ second)
      (buffer : rb.buffer = second ++ (gap ++ first)) (readPtr : rb.readPtr = second.length + gap.length)
      (writePtr : rb.writePtr = second.length)

structure Holds (rb : RingBuffer) (q : List UInt8) : Prop where
  layout : Layout rb q
  length : rb.buffer.length = rb.size
  used : q.length + rb.freeSize = rb.size
  initial : rb.initialSize ≤ rb.size
  positive : 0 < rb.initialSize

section
variable {rb : RingBuffer} {q : List UInt8}

theorem ringbufferInit_holds (fresh : Nat → UInt8) {initSize : Nat} (pos : 0 < initSize) :
    Holds (ringbufferInit fresh initSize) [] := by
  refine ⟨.linear [] (freshBytes fresh 0 initSize) ?_ rfl rfl rfl, freshBytes_length _ _ _,
    ?_, le_rfl, pos⟩
  · apply ne_nil_of_length_pos
    rwa [freshBytes_length]
  · exact zero_add _

theorem layout_front {after : List UInt8} (room : after ≠ []) (buffer : rb.buffer = q ++ after)
    (readPtr : rb.readPtr = 0) (writePtr : rb.writePtr = q.length) : Layout rb q :=
  .linear [] after room buffer readPtr (by rw [writePtr, length_nil, zero_add])

theorem exists_split {n : Nat} {l : List UInt8} (le : n ≤ l.length) :
    ∃ a b, l = a ++ b ∧ a.length = n ∧ b.length = l.length - n :=
  ⟨l.take n, l.drop n, (take_append_drop n l).symm, length_take_of_le le, length_drop⟩

theorem chunkAt_flatten {buffer x : List UInt8} {off : Nat}
    (there : bytesAt buffer off x.length = some x) :
    ∃ chunks, chunkAt buffer off x.length = some chunks ∧ chunks.flatten = x := by
  unfold chunkAt
  by_cases empty : x.length = 0
  · rw [if_neg (by omega), eq_nil_of_length_eq_zero empty]
    exact ⟨[], rfl, rfl⟩
  rw [if_pos empty, there]
  exact ⟨[x], rfl, flatten_singleton⟩

variable (h : Holds rb q)
include h

theorem Holds.used_eq : ringbufferUsed rb = q.length := by
  have := h.used
  unfold ringbufferUsed
  omega

theorem Holds.empty_of_heads (notFull : q.length < rb.size) (heads : rb.writePtr = rb.readPtr) :
    q = [] := by
  have len := h.length
  cases h.layout with
  | linear pre after room buffer readPtr writePtr =>
    apply eq_nil_of_length_eq_zero
    omega
  | wrapped fst second gap ne queue buffer readPtr writePtr =>
    have total := length_parts buffer
    have qLen := queue ▸ @length_append _ fst second
    omega

theorem linearise_spec {targetSize : Nat} (fits : q.length < targetSize)
    (heads : rb.writePtr ≠ rb.readPtr) :
    ∃ after, after ≠ [] ∧ q.length + after.length = targetSize ∧
    ringbufferLinearise fresh rb targetSize = some (q ++ after) := by
  have used := h.used_eq
  have len := h.length
  -- the new memory: the place of the queue, and what is left behind it
  obtain ⟨old, after, split, place, rest⟩ := @exists_split q.length (freshBytes fresh 0 targetSize)
    (by rw [freshBytes_length]; omega)
  rw [freshBytes_length] at rest
  refine ⟨after, ne_nil_of_length_pos (by omega), by omega, ?_⟩
  unfold ringbufferLinearise
  rw [split]
  cases h.layout with
  | linear pre tail room buffer readPtr writePtr =>
    rw [if_pos (by omega), used, buffer, readPtr, bytesAt_append]
    exact copyTo_front place
  | wrapped fst second gap ne queue buffer readPtr writePtr =>
    have qLen := queue ▸ @length_append _ fst second
    have total := length_parts buffer
    have fstSize : rb.size - rb.readPtr = fst.length := by omega
    obtain ⟨_, _, rfl, len₁, _⟩ := @exists_split fst.length old (by omega)
    have all := bytesAt_append (second ++ gap) fst []
    rw [append_nil, append_assoc, length_append] at all
    rw [if_neg (by omega), fstSize, buffer, readPtr, all, writePtr, bytesAt_front]
    simp only [Option.bind_eq_bind, Option.bind_some]
    rw [append_assoc, copyTo_front len₁]
    simp only [Option.bind_some]
    rw [copyTo_append (by omega), queue, append_assoc]

theorem realloc_spec (notFull : q.length < rb.size)
    {targetSize : Nat} (fits : q.length < targetSize) (init : rb.initialSize ≤ targetSize) :
    ∃ rb', ringbufferRealloc fresh rb targetSize = some rb' ∧ Holds rb' q ∧ rb'.size = targetSize := by
  have used := h.used
  have free : q.length + (rb.freeSize + targetSize - rb.size) = targetSize := by omega
  unfold ringbufferRealloc
  by_cases heads : rb.writePtr = rb.readPtr
  · have empty := h.empty_of_heads notFull heads
    subst empty
    rw [if_pos heads]
    refine ⟨_, rfl, ⟨@layout_front _ _ (realloc fresh rb.buffer targetSize) ?_ rfl rfl rfl,
      realloc_length _ _ _, free, init, h.positive⟩, rfl⟩
    apply ne_nil_of_length_pos
    rwa [realloc_length]
  rw [if_neg heads]
  by_cases inPlace : rb.writePtr ≥ rb.readPtr ∧ rb.writePtr < targetSize
  · rw [if_pos inPlace]
    cases h.layout with
    | linear pre after room buffer readPtr writePtr =>
      have kept :
        realloc fresh rb.buffer targetSize = pre ++ (q ++ (after.take (targetSize - rb.writePtr) ++
            freshBytes fresh rb.buffer.length (targetSize - rb.buffer.length))) := by
        rw [realloc, buffer, ← append_assoc pre q, take_append, length_append,
          take_of_length_le (by rw [length_append]; omega), writePtr]
        simp only [append_assoc]
      refine ⟨_, rfl,
        ⟨.linear pre _ ?_ kept readPtr writePtr, realloc_length _ _ _, free, init, h.positive⟩, rfl⟩
      have sum := congrArg List.length kept
      rw [realloc_length] at sum
      simp only [length_append] at sum
      apply ne_nil_of_length_pos
      rw [length_append]
      omega
    | wrapped fst second gap ne queue buffer readPtr writePtr =>
      omega
  rw [if_neg inPlace]
  obtain ⟨after, room, sum, copied⟩ := linearise_spec fresh h fits heads
  rw [copied]
  refine ⟨_, rfl, ⟨layout_front room rfl rfl ?_, ?_, free, init, h.positive⟩, rfl⟩
  · dsimp only
    omega
  rw [length_append]
  exact sum

/-! ## Writing -/

/-- Bytes written behind the tail are appended to the queue. -/
theorem Holds.append {data rest : List UInt8} (fits : data.length + rest.length ≤ rb.freeSize)
    (inside : rb.writePtr + (data.length + rest.length) ≤ rb.size) :
    ∃ buffer, copyTo rb.buffer rb.writePtr (data ++ rest) = some buffer ∧ Holds { rb with
        buffer := buffer
        writePtr := (rb.writePtr + data.length) % rb.size
        freeSize := rb.freeSize - data.length } (q ++ data) := by
  have used := h.used
  have len := h.length
  have used' : (q ++ data).length + (rb.freeSize - data.length) = rb.size := by
    rw [length_append]
    omega
  cases h.layout with
  | linear pre after room buffer readPtr writePtr =>
    have total := length_parts buffer
    obtain ⟨old, after', afterEq, oldLen, _⟩ :=
      @exists_split (data.length + rest.length) after (by omega)
    have copied : copyTo rb.buffer rb.writePtr (data ++ rest) =
        some (pre ++ (q ++ (data ++ (rest ++ after')))) := by
      have step := @copyTo_append (pre ++ q) old after' (data ++ rest) (by rw [length_append, oldLen])
      rw [length_append, ← writePtr, append_assoc pre q, ← afterEq, ← buffer] at step
      rw [step]
      simp only [append_assoc]
    refine ⟨_, copied, ?_, by simp only [length_append]; omega, used', h.initial, h.positive⟩
    by_cases more : rest ++ after' = []
    · -- the queue now ends with the buffer
      have ends := congrArg List.length more
      rw [length_append, length_nil] at ends
      have room' := length_pos_iff.mpr room
      have atEnd : (rb.writePtr + data.length) % rb.size = 0 := by
        rw [show rb.writePtr + data.length = rb.size by omega, mod_self]
      rw [more, append_nil, atEnd]
      refine .wrapped (q ++ data) [] pre ?_ (append_nil _).symm rfl (by rw [readPtr]; simp) rfl
      apply ne_nil_of_length_pos
      omega
    have some := length_pos_iff.mpr more
    rw [length_append] at some
    rw [mod_eq_of_lt (by omega)]
    refine .linear pre (rest ++ after') more (by simp only [append_assoc]) readPtr ?_
    simp only [length_append, writePtr]
    omega
  | wrapped fst second gap ne queue buffer readPtr writePtr =>
    have total := length_parts buffer
    have qLen := queue ▸ @length_append _ fst second
    have fstLen := length_pos_iff.mpr ne
    obtain ⟨old, gap', gapEq, oldLen, _⟩ := @exists_split (data.length + rest.length) gap (by omega)
    have copied : copyTo rb.buffer rb.writePtr (data ++ rest) =
        some (second ++ (data ++ (rest ++ (gap' ++ fst)))) := by
      have step := @copyTo_append second old (gap' ++ fst) (data ++ rest) (by rw [length_append, oldLen])
      rw [← writePtr, ← append_assoc old, ← gapEq, ← buffer] at step
      rw [step]
      simp only [append_assoc]
    refine ⟨_, copied, ?_, by simp only [length_append]; omega, used', h.initial, h.positive⟩
    rw [mod_eq_of_lt (by omega)]
    refine .wrapped fst (second ++ data) (rest ++ gap') ne (by rw [queue, append_assoc])
      (by simp only [append_assoc]) ?_ ?_
    · simp only [length_append]
      omega
    · rw [length_append, writePtr]

theorem Holds.writePtr_lt : rb.writePtr < rb.size := by
  have len := h.length
  cases h.layout with
  | linear pre after room buffer readPtr writePtr =>
    have total := length_parts buffer
    have afterLength := length_pos_iff.mpr room
    omega
  | wrapped fst second gap ne queue buffer readPtr writePtr =>
    have total := length_parts buffer
    have fstLen := length_pos_iff.mpr ne
    omega

theorem ringbufferStore_spec {data : List UInt8} (fits : data.length ≤ rb.freeSize) :
    ∃ rb', ringbufferStore rb data = some rb' ∧ Holds rb' (q ++ data) := by
  have writePtr := h.writePtr_lt
  have used := h.used
  unfold ringbufferStore
  obtain ⟨toWrite, toWriteEq⟩ : ∃ n, (if rb.size - rb.writePtr < data.length then rb.size - rb.writePtr
      else data.length) = n := ⟨_, rfl⟩
  have toWriteLe : toWrite ≤ data.length ∧ toWrite ≤ rb.size - rb.writePtr := by
    rw [← toWriteEq]
    split <;> omega
  have takeLen : (data.take toWrite).length = toWrite := by
    rw [length_take]
    omega
  have dropLen := @List.length_drop _ toWrite data
  -- the part up to the end of the buffer
  obtain ⟨_, copied, h₁⟩ := @Holds.append rb q h (data.take toWrite) []
    (by rw [takeLen, length_nil]; omega) (by rw [takeLen, length_nil]; omega)
  rw [append_nil] at copied
  rw [takeLen] at h₁
  by_cases whole : data.length ≤ rb.size - rb.writePtr
  · have all : toWrite = data.length := by
      rw [← toWriteEq, if_neg (by omega)]
    rw [all, take_length] at copied h₁
    refine ⟨_, ?_, h₁⟩
    simp only [toWriteEq, all, take_length, drop_length, copied, copyTo_nil, Option.bind_eq_bind,
      Option.bind_some, Option.pure_def]
  -- the rest goes to the front
  have toEnd : toWrite = rb.size - rb.writePtr := by
    rw [← toWriteEq, if_pos (by omega)]
  have atPre : (rb.writePtr + toWrite) % rb.size = 0 := by
    rw [show rb.writePtr + toWrite = rb.size by omega, mod_self]
  obtain ⟨_, copied', h₂⟩ :=
    @Holds.append _ _ h₁ (data.drop toWrite) [] (by rw [dropLen, length_nil]; dsimp only; omega)
    (by rw [dropLen, length_nil]; dsimp only; rw [atPre]; omega)
  simp only [append_nil, atPre, dropLen, append_assoc, take_append_drop, zero_add] at copied' h₂
  refine ⟨_, ?_, h₂⟩
  have free : rb.freeSize - toWrite - (data.length - toWrite) = rb.freeSize - data.length := by omega
  have head : (rb.writePtr + data.length) % rb.size = (data.length - toWrite) % rb.size := by
    rw [show rb.writePtr + data.length = data.length - toWrite + rb.size by omega, add_mod_right]
  simp only [toWriteEq, copied, copied', Option.bind_eq_bind, Option.bind_some,
    Option.pure_def, free, head]

theorem ringbufferWrite_spec (notFull : q.length < rb.size)
    (data : List UInt8) : ∃ rb', ringbufferWrite fresh rb data = some rb' ∧ Holds rb' (q ++ data) := by
  unfold ringbufferWrite
  by_cases short : rb.freeSize ≤ data.length
  · obtain ⟨_, grown, h₁, size⟩ := @realloc_spec fresh _ _ h notFull
      (rb.size + data.length) (by omega) (by have := h.initial; omega)
    have used₁ := h₁.used
    obtain ⟨rb', put, h'⟩ := @ringbufferStore_spec _ _ h₁ data (by omega)
    exact ⟨rb', by simp only [if_pos short, grown, Option.bind_eq_bind, Option.bind_some, put], h'⟩
  obtain ⟨rb', put, h'⟩ := @ringbufferStore_spec _ _ h data (by omega)
  exact ⟨rb', by simp only [if_neg short, Option.bind_eq_bind, Option.bind_some, put], h'⟩

variable {sz : Nat}

theorem linearRoom_spec (notFull : q.length < rb.size) (fits : sz ≤ rb.freeSize) :
    ∃ rb', linearRoom rb sz = some (rb', rb'.writePtr) ∧ Holds rb' q ∧
    sz ≤ rb'.freeSize ∧ rb'.writePtr + sz ≤ rb'.size := by
  -- an empty queue starts again at the front
  obtain ⟨rb₁, heads, h₁, _, size⟩ : ∃ rb₁,
      (if rb.writePtr = rb.readPtr then { rb with readPtr := 0, writePtr := 0 } else rb) = rb₁ ∧
        Holds rb₁ q ∧ rb₁.freeSize = rb.freeSize ∧ rb₁.size = rb.size := by
    by_cases heads : rb.writePtr = rb.readPtr
    · have empty := h.empty_of_heads notFull heads
      subst empty
      refine ⟨_, if_pos heads,
        ⟨@layout_front _ _ rb.buffer ?_ rfl rfl rfl, h.length, h.used, h.initial, h.positive⟩, rfl, rfl⟩
      apply ne_nil_of_length_pos
      rwa [h.length]
    · exact ⟨rb, if_neg heads, h, rfl, rfl⟩
  unfold linearRoom
  rw [heads]
  have used := h₁.used
  have len := h₁.length
  by_cases room : rb₁.writePtr + sz < rb₁.size
  · rw [if_pos room]
    exact ⟨rb₁, rfl, h₁, by omega, by omega⟩
  rw [if_neg room]
  cases h₁.layout with
  | linear pre after ne buffer readPtr writePtr =>
    have moved : bytesAt rb₁.buffer rb₁.readPtr (rb₁.writePtr - rb₁.readPtr) = some q := by
      rw [buffer, readPtr, writePtr, Nat.add_sub_cancel_left]
      exact bytesAt_append _ _ _
    obtain ⟨_, tail, split, oldLen, _⟩ := @exists_split q.length rb₁.buffer (by omega)
    have copied : copyTo rb₁.buffer 0 q = some (q ++ tail) := by
      rw [split]
      exact copyTo_front oldLen
    rw [if_neg (by omega), moved]
    simp only [Option.bind_eq_bind, Option.bind_some, copied, Option.pure_def]
    refine ⟨_, rfl, ⟨@layout_front _ _ tail ?_ rfl rfl ?_, ?_, used, h₁.initial, h₁.positive⟩, ?_, ?_⟩
    · apply ne_nil_of_length_pos
      omega
    all_goals (try rw [length_append]); dsimp only; omega
  | wrapped fst second gap ne queue buffer readPtr writePtr =>
    -- the gap is room enough
    have fstLen := length_pos_iff.mpr ne
    have qLen := queue ▸ @length_append _ fst second
    omega

theorem ensureLinearWrite_spec (notFull : q.length < rb.size) (sz : Nat) :
    ∃ rb', ringbufferEnsureLinearWrite fresh rb sz = some (rb', rb'.writePtr) ∧ Holds rb' q ∧
      sz ≤ rb'.freeSize ∧ rb'.writePtr + sz ≤ rb'.size := by
  have used := h.used
  unfold ringbufferEnsureLinearWrite
  by_cases short : rb.freeSize < sz
  · obtain ⟨_, grown, h₁, size⟩ := @realloc_spec fresh _ _ h notFull
      (rb.size + sz - rb.freeSize + 32) (by omega) (by have := h.initial; omega)
    have used₁ := h₁.used
    simp only [if_pos short, grown, Option.bind_eq_bind, Option.bind_some]
    exact linearRoom_spec h₁ (by omega) (by omega)
  simp only [if_neg short, Option.bind_eq_bind, Option.bind_some]
  exact linearRoom_spec h notFull (by omega)

theorem commitWrittenBytes_spec {fill : List UInt8} (committed : sz ≤ fill.length)
    (fits : fill.length ≤ rb.freeSize)
    (inside : rb.writePtr + fill.length ≤ rb.size) : ∃ buffer rb',
    copyTo rb.buffer rb.writePtr fill = some buffer ∧
      ringbufferCommitWrittenBytes { rb with buffer := buffer } sz = (rb', true) ∧
      Holds rb' (q ++ fill.take sz) := by
  have takeLen : (fill.take sz).length = sz := by
    rw [length_take]
    omega
  have dropLen := @List.length_drop _ sz fill
  obtain ⟨buffer, copied, h'⟩ := @Holds.append rb q h (fill.take sz) (fill.drop sz) (by omega) (by omega)
  rw [take_append_drop] at copied
  rw [takeLen] at h'
  unfold ringbufferCommitWrittenBytes
  by_cases none : sz < 1
  · have zero : sz = 0 := by omega
    subst zero
    refine ⟨buffer, _, copied, if_pos none, ?_⟩
    simpa only [add_zero, mod_eq_of_lt h.writePtr_lt, Nat.sub_zero] using h'
  refine ⟨buffer, _, copied, ?_, h'⟩
  rw [if_neg none, if_neg (by dsimp only; omega)]

/-- The chunks are the front of the queue, in order. -/
theorem ringbufferPeek_spec (sz : Nat) : ∃ chunks, ringbufferPeek rb sz = some chunks ∧
    chunks.flatten = q.take sz := by
  have len := h.length
  have used : rb.size - rb.freeSize = q.length := h.used_eq
  unfold ringbufferPeek
  by_cases no : sz < 1
  · rw [if_pos no, show sz = 0 by omega]
    exact ⟨[], rfl, rfl⟩
  rw [if_neg no, used]
  have rem : (if q.length < sz then q.length else sz) = (q.take sz).length := by
    rw [length_take]
    split <;> omega
  rw [rem]
  -- the front of the queue is in the two chunks
  obtain ⟨x, y, toRead, all, atHead, atPre⟩ : ∃ x y, (if rb.readPtr + (q.take sz).length > rb.size then
      rb.size - rb.readPtr else (q.take sz).length) = x.length ∧ q.take sz = x ++ y ∧
      bytesAt rb.buffer rb.readPtr x.length = some x ∧ bytesAt rb.buffer 0 y.length = some y := by
    have takeLe := @List.length_take_le _ sz q
    cases h.layout with
    | linear before after room buffer readPtr writePtr =>
      have total := length_parts buffer
      have takeLe' := @List.length_take_le' _ sz q
      refine ⟨q.take sz, [], if_neg (by omega), (append_nil _).symm, ?_, bytesAt_front [] _⟩
      rw [buffer, readPtr, ← take_append_drop sz q, append_assoc, take_append_drop]
      exact bytesAt_append _ _ _
    | wrapped fst second gap ne queue buffer readPtr writePtr =>
      have total := length_parts buffer
      rw [queue] at takeLe ⊢
      by_cases short : sz ≤ fst.length
      · have pre : (fst ++ second).take sz = fst.take sz := take_append_of_le_length short
        have preLe := @List.length_take_le' _ sz fst
        rw [pre]
        refine ⟨fst.take sz, [], if_neg (by omega), (append_nil _).symm, ?_, bytesAt_front [] _⟩
        have there := bytesAt_append (second ++ gap) (fst.take sz) (fst.drop sz)
        rwa [take_append_drop, append_assoc, ← buffer, length_append, ← readPtr] at there
      have pre : (fst ++ second).take sz = fst ++ second.take (sz - fst.length) := by
        rw [take_append, take_of_length_le (by omega)]
      rw [pre]
      refine ⟨fst, second.take (sz - fst.length), ?_, rfl, ?_, ?_⟩
      · rw [length_append]
        split <;> omega
      · have there := bytesAt_append (second ++ gap) fst []
        rwa [append_nil, append_assoc, ← buffer, length_append, ← readPtr] at there
      have there :=
        bytesAt_front (second.take (sz - fst.length)) (second.drop (sz - fst.length) ++ (gap ++ fst))
      rwa [← append_assoc, take_append_drop, ← buffer] at there
  obtain ⟨chunk, read, flat⟩ := chunkAt_flatten atHead
  obtain ⟨chunk', read', flat'⟩ := chunkAt_flatten atPre
  refine ⟨chunk ++ chunk', ?_, by rw [flatten_append, flat, flat', all]⟩
  dsimp only
  rw [toRead, read,
    show (q.take sz).length - x.length = y.length by rw [all, length_append]; omega, read']
  rfl

/-- Moving the read pointer drops bytes from the front of the queue. -/
theorem Holds.drop (there : sz ≤ q.length) :
    Holds { rb with readPtr := (rb.readPtr + sz) % rb.size, freeSize := rb.freeSize + sz }
    (q.drop sz) := by
  have used := h.used
  have len := h.length
  have dropLen := @List.length_drop _ sz q
  have takeLen : (q.take sz).length = sz := by
    rw [length_take]
    omega
  refine ⟨?_, len, by dsimp only; omega, h.initial, h.positive⟩
  cases h.layout with
  | linear pre after room buffer readPtr writePtr =>
    have total := length_parts buffer
    have afterLength := length_pos_iff.mpr room
    rw [mod_eq_of_lt (by omega)]
    refine .linear (pre ++ q.take sz) after room ?_ ?_ ?_
    · rw [buffer, append_assoc, ← append_assoc (q.take sz), take_append_drop]
    · rw [length_append, takeLen, readPtr]
    rw [length_append, takeLen, dropLen, writePtr]
    omega
  | wrapped fst second gap ne queue buffer readPtr writePtr =>
    have total := congrArg List.length buffer
    have qLen := congrArg List.length queue
    have fstLen := length_pos_iff.mpr ne
    simp only [length_append] at total qLen
    by_cases short : sz < fst.length
    · -- the read head stays behind the gap
      rw [mod_eq_of_lt (by omega)]
      refine .wrapped (fst.drop sz) second (gap ++ fst.take sz) ?_ ?_ ?_ ?_ writePtr
      · apply ne_nil_of_length_pos
        rw [length_drop]
        omega
      · rw [queue, drop_append_of_le_length (by omega)]
      · rw [buffer, append_assoc gap, take_append_drop]
      · rw [length_append, length_take, min_eq_left (by omega), readPtr, add_assoc]
    -- it goes to the front, and the queue is in one piece again
    have head : (rb.readPtr + sz) % rb.size = sz - fst.length := by
      rw [show rb.readPtr + sz = sz - fst.length +
        rb.size by omega, add_mod_right, mod_eq_of_lt (by omega)]
    have rest : q.drop sz = second.drop (sz - fst.length) := by
      rw [queue, drop_append, drop_eq_nil_of_le (by omega), nil_append]
    rw [head, rest]
    refine .linear (second.take (sz - fst.length)) (gap ++ fst) ?_ ?_ ?_ ?_
    · apply ne_nil_of_length_pos
      rw [length_append]
      omega
    · rw [← append_assoc, take_append_drop, buffer]
    · rw [length_take]
      dsimp only
      omega
    · rw [length_take, length_drop, writePtr]
      omega

theorem commitReadBytes_spec (there : sz ≤ q.length) :
    ∃ rb', ringbufferCommitReadBytes fresh rb sz = some rb' ∧ Holds rb' (q.drop sz) := by
  have used := h.used
  unfold ringbufferCommitReadBytes
  by_cases no : sz < 1
  · rw [if_pos no, show sz = 0 by omega]
    exact ⟨rb, rfl, h⟩
  rw [if_neg no, if_neg (by omega)]
  have dropped := h.drop there
  by_cases shrink : rb.size ≠ rb.initialSize ∧
      ringbufferUsed { rb with readPtr := (rb.readPtr + sz) % rb.size, freeSize := rb.freeSize + sz } <
        rb.initialSize / 2
  · rw [if_pos shrink]
    have few := shrink.2
    rw [dropped.used_eq] at few
    have init := h.initial
    obtain ⟨rb', shrunk, h', -⟩ := @realloc_spec fresh _ _ dropped (by dsimp only; omega)
      rb.initialSize (by omega) le_rfl
    exact ⟨rb', shrunk, h'⟩
  · rw [if_neg shrink]
    exact ⟨_, rfl, dropped⟩

end

/-! ## Whole runs -/

inductive RingBufferCall where
  | write (fresh : Nat → UInt8) (data : List UInt8)
  /-- `ringbuffer_ensure_linear_write(n)`, `fill` copied to the pointer it returns, and a commit. -/
  | writeLinear (fresh : Nat → UInt8) (n : Nat) (fill : List UInt8) (committed : Nat)
  | peek (sz : Nat)
  | commitRead (fresh : Nat → UInt8) (sz : Nat)

inductive RingBufferResult where
  | done
  | committed (ok : Bool)
  | exposed (bytes : List UInt8)
deriving DecidableEq

variable (rb : RingBuffer)

def ringbufferCall : RingBufferCall → Option (RingBuffer × RingBufferResult)
  | .write fresh data => (ringbufferWrite fresh rb data).map fun rb => (rb, .done)
  | .writeLinear fresh n fill committed => do
    let (rb, room) ← ringbufferEnsureLinearWrite fresh rb n
    let buffer ← copyTo rb.buffer room fill
    let (rb, ok) := ringbufferCommitWrittenBytes { rb with buffer := buffer } committed
    return (rb, .committed ok)
  | .peek sz => (ringbufferPeek rb sz).map fun chunks => (rb, .exposed chunks.flatten)
  | .commitRead fresh sz => (ringbufferCommitReadBytes fresh rb sz).map fun rb => (rb, .done)

/-- The queue of the bytes that were written and not yet consumed. -/
def fifoCall (q : List UInt8) : RingBufferCall → List UInt8 × RingBufferResult
  | .write _ data => (q ++ data, .done)
  | .writeLinear _ _ fill committed => (q ++ fill.take committed, .committed true)
  | .peek sz => (q, .exposed (q.take sz))
  | .commitRead _ sz => (q.drop sz, .done)

def RingBufferCall.Allowed : RingBufferCall → Prop
  | .writeLinear _ n fill committed => fill.length ≤ n ∧ committed ≤ fill.length
  | .commitRead _ sz => sz ≤ ringbufferUsed rb
  | _ => True

def RingBufferCall.NotFull : RingBufferCall → Prop
  | .write .. | .writeLinear .. => ringbufferUsed rb < rb.size
  | _ => True

instance (rb : RingBuffer) : ∀ call : RingBufferCall, Decidable (call.Allowed rb ∧ call.NotFull rb)
  | .write .. => inferInstanceAs (Decidable (True ∧ _ < _))
  | .writeLinear .. => inferInstanceAs (Decidable ((_ ≤ _ ∧ _ ≤ _) ∧ _ < _))
  | .peek _ => inferInstanceAs (Decidable (True ∧ True))
  | .commitRead .. => inferInstanceAs (Decidable (_ ≤ _ ∧ True))

/-- One call on the ring buffer is the same call on the queue. -/
theorem call_simulates (q : List UInt8) (call : RingBufferCall) (holds : Holds rb q)
    (ok : call.Allowed rb ∧ call.NotFull rb) :
    ∃ rb', ringbufferCall rb call = some (rb', (fifoCall q call).2) ∧ Holds rb' (fifoCall q call).1 := by
  have used := holds.used_eq
  cases call with
  | write fresh data =>
    have notFull : ringbufferUsed rb < rb.size := ok.2
    obtain ⟨rb', written, h'⟩ := ringbufferWrite_spec fresh holds (used ▸ notFull) data
    exact ⟨rb', by rw [ringbufferCall, written]; rfl, h'⟩
  | writeLinear fresh n fill committed =>
    have notFull : ringbufferUsed rb < rb.size := ok.2
    obtain ⟨fits, count⟩ : fill.length ≤ n ∧ committed ≤ fill.length := ok.1
    obtain ⟨_, granted, h₁, free, _⟩ := ensureLinearWrite_spec fresh holds (used ▸ notFull) n
    obtain ⟨_, rb', copied, commit, h'⟩ :=
      commitWrittenBytes_spec h₁ count (le_trans fits free) (by omega)
    refine ⟨rb', ?_, h'⟩
    simp only [ringbufferCall, granted, copied, commit, Option.bind_eq_bind,
      Option.bind_some, Option.pure_def, fifoCall]
  | peek sz =>
    obtain ⟨_, read, flat⟩ := ringbufferPeek_spec holds sz
    refine ⟨rb, ?_, holds⟩
    rw [ringbufferCall, read, Option.map_some, flat]
    rfl
  | commitRead fresh sz =>
    have there : sz ≤ ringbufferUsed rb := ok.1
    obtain ⟨rb', consumed, h'⟩ := commitReadBytes_spec fresh holds (used ▸ there)
    exact ⟨rb', by rw [ringbufferCall, consumed]; rfl, h'⟩

/-- Over every list of calls that writes only while the buffer is not full, the ring buffer is a
queue: no access leaves the buffer, and what is exposed is the front of the queue. -/
theorem ringbuffer_refines_fifo (fresh : Nat → UInt8) {initialSize : Nat} (positive : 0 < initialSize)
    {calls : List RingBufferCall}
    (meet : CallsMeet ringbufferCall (fun rb call => call.Allowed rb ∧ call.NotFull rb)
      (ringbufferInit fresh initialSize) calls) :
    ∃ rb, run ringbufferCall (ringbufferInit fresh initialSize) calls =
    some (rb, outputs fifoCall [] calls) ∧
      ringbufferUsed rb = (finalState fifoCall [] calls).length ∧
      ∀ sz, ∃ chunks, ringbufferPeek rb sz = some chunks ∧
      chunks.flatten = (finalState fifoCall [] calls).take sz := by
  obtain ⟨rb, ran, holds⟩ := run_refines call_simulates (ringbufferInit_holds fresh positive) meet
  exact ⟨rb, ran, holds.used_eq, ringbufferPeek_spec holds⟩

def fifoCalls : List RingBufferCall :=
  [.write (fun _ => 0) [1, 2, 3], .commitRead (fun _ => 0) 2, .write (fun _ => 0) [4, 5],
    .writeLinear (fun _ => 0) 6 [6, 7, 8] 2, .peek 4, .commitRead (fun _ => 0) 4]

/-- A buffer of four bytes grows and loses nothing. -/
theorem ringbuffer_refines_fifo_grown :
    CallsMeet ringbufferCall (fun rb call => call.Allowed rb ∧ call.NotFull rb)
        (ringbufferInit (fun _ => 0) 4) fifoCalls ∧
      ∃ rb, run ringbufferCall (ringbufferInit (fun _ => 0) 4) fifoCalls =
      some (rb, outputs fifoCall [] fifoCalls) ∧
        ringbufferUsed rb = (finalState fifoCall [] fifoCalls).length ∧
        ∀ sz, ∃ chunks, ringbufferPeek rb sz = some chunks ∧
          chunks.flatten = (finalState fifoCall [] fifoCalls).take sz := by
  have meet : CallsMeet ringbufferCall (fun rb call => call.Allowed rb ∧ call.NotFull rb)
      (ringbufferInit (fun _ => 0) 4) fifoCalls := by
    decide
  exact ⟨meet, ringbuffer_refines_fifo (fun _ => 0) (by decide) meet⟩

/-- The buffer is filled to its last byte by a linear write; the next write takes it for empty. -/
theorem ringbuffer_full_taken_for_empty : (run ringbufferCall (ringbufferInit (fun _ => 0) 4)
        [.writeLinear (fun _ => 0) 4 [1, 2, 3, 4] 4, .write (fun _ => 0) [5], .peek 5]).map Prod.snd =
      some [.committed true, .done, .exposed [5, 2, 3, 4, 0]] ∧
    outputs fifoCall [] [.writeLinear (fun _ => 0) 4 [1, 2, 3, 4] 4, .write (fun _ => 0) [5], .peek 5] =
      [.committed true, .done, .exposed [1, 2, 3, 4, 5]] := by
  decide

end KvmServer.Utils
