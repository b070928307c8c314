import KvmServer.Winpr.Asn1Tree

/-! # What the ASN.1 encoder writes

The chunks stand one behind the other in the pool, with gaps where a header is shorter than its
room.  The chunks before the header of an open container belong to the outer ones, those behind it
are its content. -/

namespace KvmServer.Winpr
open Lib List

/-! ## Lengths -/

theorem log256_eq {n k : Nat} (low : 256 ^ k ≤ n) (high : n < 256 ^ (k + 1)) : Nat.log 256 n = k :=
  Nat.log_eq_of_pow_le_of_lt_pow low high

variable {n : Nat} {pool' : Mem UInt8} {front : List Asn1Chunk} {tag : UInt8} {enc' : Asn1Encoder}

theorem shortestLength_small (lt : n < 128) : shortestLength n = [.ofNat n] := if_pos lt

variable {len start stop : Nat} {chunks : List Asn1Chunk} {pool : Mem UInt8}
  {containers : List Asn1EncContainer}
  {bytes inner : List UInt8} {container : Asn1EncContainer} {outer : List (List UInt8)}
    {enc : Asn1Encoder}
  {tagId : UInt8} {context : Option UInt8} {content : Asn1Value} {opn : Asn1Opening}
    {back : List Asn1Chunk}
  {middle : Nat} (id : Nat)

theorem log256_of_long (long : ¬len < 128) (fits : len < 2 ^ 32) :
    Nat.log 256 len = if len < 2 ^ 8 then 0 else if len < 2 ^ 16 then 1
    else if len < 2 ^ 24 then 2 else 3 := by
  split
  · exact log256_eq (by omega) (by omega)
  split
  · exact log256_eq (by omega) (by omega)
  split <;> exact log256_eq (by omega) (by omega)

theorem asn1WriteLen_eq (fits : len < 2 ^ 32) : asn1WriteLen len = .ok (shortestLength len) := by
  unfold asn1WriteLen shortestLength
  by_cases one : len < 128
  · rw [if_pos one, if_pos one]
  rw [if_neg one, if_neg one, log256_of_long one fits]
  split
  · rfl
  split
  · rfl
  split
  · rfl
  rw [winprAssert, if_pos (by omega)]
  rfl

theorem lenBytes_eq (fits : len < 2 ^ 32) : lenBytes len = (shortestLength len).length := by
  unfold lenBytes shortestLength
  by_cases one : len < 128
  · rw [if_pos one, if_pos one]
    rfl
  rw [if_neg one, if_neg one, length_cons, beBytes_length, log256_of_long one fits]
  split
  · rfl
  split
  · rfl
  split <;> rfl

theorem lenBytes_le (len : Nat) : lenBytes len ≤ 5 := by
  unfold lenBytes
  split_ifs <;> omega

theorem asn1WriteHeader_eq (tag : UInt8) (fits : len < 2 ^ 32) :
    asn1WriteHeader tag len = .ok (tag :: shortestLength len) := by
  rw [asn1WriteHeader, asn1WriteLen_eq fits]
  rfl

theorem tlv_length (tag : UInt8) (value : List UInt8) :
    (tlv tag value).length = 1 + (shortestLength value.length).length + value.length := by
  simp [tlv]
  omega

theorem length_le_tlv (tag : UInt8) (value : List UInt8) : value.length ≤ (tlv tag value).length := by
  rw [tlv_length]
  omega

/-! ## Chunks -/

def contents (pool : Mem UInt8) (chunks : List Asn1Chunk) : List UInt8 :=
  chunks.flatMap fun chunk => block pool chunk.poolOffset chunk.used

/-- The chunks lie between two places of the pool, in order; the last one ends at `stop`. -/
def Laid (start : Nat) : List Asn1Chunk → Nat → Prop
  | [], stop => start = stop
  | chunk :: chunks, stop =>
    start ≤ chunk.poolOffset ∧ chunk.used ≤ chunk.capacity ∧
      Laid (chunk.poolOffset + chunk.capacity) chunks stop

theorem contents_append (pool : Mem UInt8) (front back : List Asn1Chunk) :
    contents pool (front ++ back) = contents pool front ++ contents pool back :=
  flatMap_append

theorem contents_length (pool : Mem UInt8) (chunks : List Asn1Chunk) :
    (contents pool chunks).length = (chunks.map (·.used)).sum := by
  simp [contents, length_flatMap]

theorem Laid.append (fst : Laid start front middle) (second : Laid middle back stop) :
    Laid start (front ++ back) stop := by
  induction front generalizing start with
  | nil =>
    cases fst
    exact second
  | cons _ front ih => exact ⟨fst.1, fst.2.1, ih fst.2.2⟩

theorem Laid.le (laid : Laid start chunks stop) : start ≤ stop := by
  induction chunks generalizing start with
  | nil => exact le_of_eq laid
  | cons _ chunks ih =>
    have fst := laid.1
    have rest := ih laid.2.2
    omega

theorem Laid.contents_congr (laid : Laid start chunks stop)
    (same : ∀ i, start ≤ i → i < stop → pool' i = pool i) :
    contents pool' chunks = contents pool chunks := by
  induction chunks generalizing start with
  | nil => rfl
  | cons chunk chunks ih =>
    obtain ⟨_, _, rest⟩ := laid
    have end_le := rest.le
    have here : block pool' chunk.poolOffset chunk.used = block pool chunk.poolOffset chunk.used :=
      block_ext fun k lo => same _ (by omega) (by omega)
    have later := ih rest fun i low high => same i (by omega) high
    simp only [contents, flatMap_cons] at later ⊢
    rw [here, later]

theorem Laid.exists_of_append (laid : Laid start (front ++ back) stop) :
    ∃ middle, Laid start front middle ∧ Laid middle back stop := by
  induction front generalizing start with
  | nil => exact ⟨start, rfl, laid⟩
  | cons _ front ih =>
    obtain ⟨middle, fst, second⟩ := ih laid.2.2
    exact ⟨middle, ⟨laid.1, laid.2.1, fst⟩, second⟩

theorem Laid.last {last : Asn1Chunk} (laid : Laid start (front ++ [last]) stop) :
    last.poolOffset + last.capacity = stop := by
  obtain ⟨_, _, second⟩ := laid.exists_of_append
  exact second.2.2

theorem expandable_eq_some {last : Asn1Chunk} (got : expandable chunks = some last) :
    ∃ front, chunks = front ++ [last] ∧ last.capacity = last.used := by
  obtain ⟨isLast, full⟩ := Option.filter_eq_some_iff.mp got
  obtain ⟨front, split⟩ := getLast?_eq_some_iff.mp isLast
  exact ⟨front, split, (of_decide_eq_true full).2⟩

theorem commitChunk_laid (laid : Laid start chunks stop) (pool : Mem UInt8) (data : List UInt8) :
    Laid start (commitChunk chunks stop data.length) (stop + data.length) ∧
      contents (blit pool stop data) (commitChunk chunks stop data.length) =
      contents pool chunks ++ data := by
  have pre : ∀ i, i < stop → blit pool stop data i = pool i := fun i lo =>
    blit_of_outside pool stop data (Or.inl lo)
  unfold commitChunk
  cases got : expandable chunks with
  | none =>
    refine ⟨laid.append ⟨le_refl _, le_refl _, rfl⟩, ?_⟩
    rw [contents_append, laid.contents_congr fun i _ lo => pre i lo]
    simp [contents, block_blit]
  | some last =>
    obtain ⟨_, rfl, full⟩ := expandable_eq_some got
    obtain ⟨_, fst, after, inside, stops⟩ := laid.exists_of_append
    have stops' : last.poolOffset + last.capacity = stop := stops
    have kept :
        block (blit pool stop data) last.poolOffset last.used = block pool last.poolOffset last.used :=
      block_ext fun k lo => pre _ (by omega)
    rw [dropLast_concat]
    refine ⟨fst.append ⟨after, Nat.add_le_add_right inside _, ?_⟩, ?_⟩
    · change last.poolOffset + (last.capacity + data.length) = stop + data.length
      omega
    rw [contents_append, contents_append, fst.contents_congr fun i _ lo => pre i (by omega),
      append_assoc]
    simp only [contents, flatMap_cons, flatMap_nil, append_nil]
    rw [block_add, kept, ← full, stops', block_blit]

theorem commitChunk_behind {header : Asn1Chunk} (resv : header.capacity ≠ header.used)
    (front inner : List Asn1Chunk) (position chunkSz : Nat) :
    commitChunk (front ++ header :: inner) position chunkSz =
      front ++ header :: commitChunk inner position chunkSz := by
  cases inner using reverseRecOn with
  | nil =>
    have unexpanded : expandable (front ++ [header]) = none := by
      simp [expandable, resv]
    have empty : expandable [] = none := rfl
    rw [commitChunk, commitChunk, unexpanded, empty]
    simp
  | append_singleton inner last =>
    have regroup : front ++ header :: (inner ++ [last]) = (front ++ header :: inner) ++ [last] := by simp
    have same : expandable ((front ++ header :: inner) ++ [last]) = expandable (inner ++ [last]) := by
      rw [expandable, expandable, getLast?_concat, getLast?_concat]
    rw [regroup, commitChunk, commitChunk, same]
    cases expandable (inner ++ [last]) with
    | none => simp
    | some _ =>
      simp only [dropLast_concat]
      simp

/-! ## Open containers -/

def headerRoom (container : Asn1EncContainer) : Nat :=
  if container.contextual ∧ (containerByte container).isSome then 12 else 6

/-- The chunks up to `stop` hold the elements written at the top level, and those of each open container;
the innermost one comes first. -/
inductive Holds (pool : Mem UInt8) :
    List Asn1EncContainer → List Asn1Chunk → Nat → List (List UInt8) → Prop
  | top {start stop : Nat} {chunks : List Asn1Chunk} (laid : Laid start chunks stop) :
    Holds pool [] chunks stop [contents pool chunks]
  | opened {containers : List Asn1EncContainer} {front : List Asn1Chunk} {middle : Nat}
      {outer : List (List UInt8)} (holds : Holds pool containers front middle outer)
      {container : Asn1EncContainer} (id : container.headerChunkId = front.length)
      {header : Asn1Chunk} (after : middle ≤ header.poolOffset) (unused : header.used = 0)
      (room : header.capacity = headerRoom container) {inner : List Asn1Chunk} {stop : Nat}
      (laid : Laid (header.poolOffset + header.capacity) inner stop) :
    Holds pool (container :: containers) (front ++ header :: inner) stop (contents pool inner :: outer)

theorem headerRoom_pos (container : Asn1EncContainer) : 0 < headerRoom container := by
  unfold headerRoom
  split <;> decide

theorem Holds.laid {bytes : List (List UInt8)} (h : Holds pool containers chunks stop bytes) :
    ∃ start, Laid start chunks stop := by
  induction h with
  | top laid => exact ⟨_, laid⟩
  | opened _ _ after unused _ laid ih =>
    obtain ⟨start, front⟩ := ih
    exact ⟨start, front.append ⟨after, by omega, laid⟩⟩

theorem Holds.congr {bytes : List (List UInt8)} (h : Holds pool containers chunks stop bytes)
    (same : ∀ i, i < stop → pool' i = pool i) : Holds pool' containers chunks stop bytes := by
  induction h with
  | top laid =>
    rw [← laid.contents_congr fun i _ lo => same i lo]
    exact .top laid
  | opened _ id after unused room laid ih =>
    have le := laid.le
    rw [← laid.contents_congr fun i _ lo => same i lo]
    exact .opened (ih fun i lo => same i (by omega)) id after unused room laid

theorem Holds.append {tail : List Asn1Chunk} {bytes : List UInt8}
    (h : Holds pool containers chunks middle (bytes :: outer)) (laid : Laid middle tail stop) :
    Holds pool containers (chunks ++ tail) stop ((bytes ++ contents pool tail) :: outer) := by
  cases h with
  | top front =>
    rw [← contents_append]
    exact .top (front.append laid)
  | opened h id after unused room inner =>
    rw [← contents_append, append_assoc, cons_append]
    exact .opened h id after unused room (inner.append laid)

theorem Holds.innermost (h : Holds pool (container :: containers) chunks stop (inner :: outer)) :
    ∃ front header content middle, chunks = front ++ header :: content ∧ inner = contents pool content ∧
      Holds pool containers front middle outer ∧ container.headerChunkId = front.length ∧
      middle ≤ header.poolOffset ∧ header.capacity = headerRoom container ∧
      Laid (header.poolOffset + header.capacity) content stop := by
  cases h with
  | opened h id after unused room laid => exact ⟨_, _, _, _, rfl, rfl, h, id, after, room, laid⟩

theorem Holds.commit (h : Holds pool containers chunks stop (bytes :: outer)) (data : List UInt8) :
    Holds (blit pool stop data) containers (commitChunk chunks stop data.length) (stop + data.length)
      ((bytes ++ data) :: outer) := by
  cases h with
  | top laid =>
    obtain ⟨laid', written⟩ := commitChunk_laid laid pool data
    rw [← written]
    exact .top laid'
  | @opened _ _ _ _ h container id header after unused room inner _ laid =>
    obtain ⟨laid', written⟩ := commitChunk_laid laid pool data
    have le := laid.le
    have resv : header.capacity ≠ header.used := by
      have := headerRoom_pos container
      omega
    rw [← written, commitChunk_behind resv]
    refine .opened (h.congr fun i lo => ?_) id after unused room laid'
    exact blit_of_outside pool stop data (Or.inl (by omega))

/-- The encoder has written `bytes` to the innermost container, and `outer` to the others. -/
def Asn1Encoder.Holds (enc : Asn1Encoder) (bytes : List (List UInt8)) : Prop :=
  Winpr.Holds enc.pool enc.containers enc.chunks enc.position bytes

/-- One call: it goes through, returns `size`, leaves `containers` open and `bytes` written. -/
def Call (result : Except Stop (Asn1Encoder × Nat)) (size : Nat) (containers : List Asn1EncContainer)
    (bytes : List (List UInt8)) : Prop :=
  ∃ enc, result = .ok (enc, size) ∧ enc.containers = containers ∧ enc.Holds bytes

/-! ## Values -/

theorem asn1WriteElement_call (h : enc.Holds (bytes :: outer)) {data : List UInt8} (ne : data ≠ []) :
    Call (asn1WriteElement enc data.length (.ok data)) data.length enc.containers
    ((bytes ++ data) :: outer) := by
  have committed := Holds.commit h data
  obtain ⟨_, laid⟩ := committed.laid
  have dest : ((commitChunk enc.chunks enc.position data.length).getLastD ⟨0, 0, 0⟩).poolOffset +
      ((commitChunk enc.chunks enc.position data.length).getLastD ⟨0, 0, 0⟩).capacity -
        data.length = enc.position := by
    cases last : commitChunk enc.chunks enc.position data.length using reverseRecOn with
    | nil =>
      exfalso
      unfold commitChunk at last
      split at last <;> simp at last
    | append_singleton front chunk =>
      rw [last] at laid
      have stops := laid.last
      rw [getLastD_concat]
      omega
  refine ⟨{ enc with
    pool := blit enc.pool enc.position data
    position := enc.position + data.length
    chunks := commitChunk enc.chunks enc.position data.length }, ?_, rfl, committed⟩
  simp only [asn1WriteElement, asn1encGetFreeChunk, winprAssert, Bind.bind,
    Except.bind, Pure.pure, Except.pure, if_pos (length_pos_of_ne_nil ne).ne', if_true, le_refl]
  rw [dest]

theorem integer_cases (value : BitVec 32) :
    (asn1IntegerLen value = 2 ∧ integerContent value = beBytes 1 value.toNat ∧
        -2 ^ 7 ≤ value.toInt ∧ value.toInt < 2 ^ 7) ∨
          (asn1IntegerLen value = 3 ∧ integerContent value = beBytes 2 value.toNat ∧
        -2 ^ 15 ≤ value.toInt ∧ value.toInt < 2 ^ 15) ∨
      (asn1IntegerLen value = 5 ∧ integerContent value = beBytes 4 value.toNat) := by
  by_cases one : -2 ^ 7 ≤ value.toInt ∧ value.toInt < 2 ^ 7
  · have one' : value.toInt ≤ 127 ∧ value.toInt ≥ -128 := by omega
    exact Or.inl ⟨if_pos one', if_pos one, one⟩
  have one' : ¬(value.toInt ≤ 127 ∧ value.toInt ≥ -128) := by omega
  by_cases two : -2 ^ 15 ≤ value.toInt ∧ value.toInt < 2 ^ 15
  · have two' : value.toInt ≤ 32767 ∧ value.toInt ≥ -32768 := by omega
    exact Or.inr (Or.inl ⟨(if_neg one').trans (if_pos two'), (if_neg one).trans (if_pos two), two⟩)
  have two' : ¬(value.toInt ≤ 32767 ∧ value.toInt ≥ -32768) := by omega
  exact Or.inr (Or.inr ⟨(if_neg one').trans (if_neg two'), (if_neg one).trans (if_neg two)⟩)

theorem integer_eq_tlv (tag : UInt8) (value : BitVec 32) :
    1 + asn1IntegerLen value = (tlv tag (integerContent value)).length ∧
      tag :: asn1WriteInteger value = tlv tag (integerContent value) := by
  unfold asn1WriteInteger
  obtain ⟨len, content, -⟩ | ⟨len, content, -⟩ | ⟨len, content⟩ := integer_cases value
  all_goals
    rw [len, content]
    exact ⟨rfl, rfl⟩

theorem boolean_eq_tlv (value : UInt8) : tlv ER_TAG_BOOLEAN [value] = [ER_TAG_BOOLEAN, 1, value] := by
  rfl

theorem memoryChunk_eq (tag : UInt8) {bytes : List UInt8} (fits : bytes.length < 2 ^ 32) :
    1 + lenBytes bytes.length + bytes.length = (tlv tag bytes).length ∧
      (asn1WriteHeader tag bytes.length >>= fun header => pure (header ++ bytes)) = Except.ok
      (tlv tag bytes) := by
  rw [tlv_length, lenBytes_eq fits, asn1WriteHeader_eq tag fits]
  exact ⟨rfl, rfl⟩

def Asn1Call.Admissible : Asn1Call → Prop
  | .value context content =>
    (∀ tagId ∈ context, tagId < 31) ∧ ∀ bytes, content = .raw bytes → bytes ≠ []
  | .start (.app tagId) => tagId < 31
  | .start (.seq context) => ∀ tagId ∈ context, tagId < 31
  | .start (.set context) => ∀ tagId ∈ context, tagId < 31
  | .start (.octetString context) => ∀ tagId ∈ context, tagId < 31
  | .start (.contextual tagId) => tagId < 31
  | .endContainer => True

theorem assertValidTag_eq (lt : tagId < 31) : assertValidTag tagId = .ok () := by
  rw [assertValidTag, winprAssert, if_pos]
  exact UInt8.lt_trans lt (by decide)

def asn1Element (enc : Asn1Encoder) (element : List UInt8) : Except Stop (Asn1Encoder × Nat) :=
  asn1WriteElement enc element.length (.ok element)

theorem integerLike_eq (enc : Asn1Encoder) (tag : UInt8) (value : BitVec 32) :
    winPrAsn1EncIntegerLike enc tag value = asn1Element enc (tlv tag (integerContent value)) := by
  obtain ⟨length, written⟩ := integer_eq_tlv tag value
  rw [winPrAsn1EncIntegerLike, length, written, asn1Element]

theorem memoryChunkLike_eq (enc : Asn1Encoder) (tag : UInt8) (fits : (tlv tag bytes).length < 2 ^ 32) :
    winPrAsn1EncMemoryChunk enc tag bytes = asn1Element enc (tlv tag bytes) := by
  obtain ⟨length, written⟩ := @memoryChunk_eq tag bytes (lt_of_le_of_lt (length_le_tlv tag bytes) fits)
  rw [winPrAsn1EncMemoryChunk, length, written, asn1Element]

theorem contextualIntegerLike_eq (enc : Asn1Encoder) (tag : UInt8) (lt : tagId < 31)
    (value : BitVec 32) :
    winPrAsn1EncContextualIntegerLike enc tag tagId value =
      asn1Element enc (tlv (ER_TAG_CONTEXTUAL ||| tagId) (tlv tag (integerContent value))) := by
  obtain ⟨length, written⟩ := integer_eq_tlv tag value
  have fits : (tlv tag (integerContent value)).length < 2 ^ 32 := by
    obtain ⟨len, -⟩ | ⟨len, -⟩ | ⟨len, -⟩ := integer_cases value
    all_goals omega
  obtain ⟨outLen, outer⟩ := @memoryChunk_eq (ER_TAG_CONTEXTUAL ||| tagId) _ fits
  rw [winPrAsn1EncContextualIntegerLike, assertValidTag_eq lt]
  change asn1WriteElement enc
    (1 + lenBytes (1 + asn1IntegerLen value) + (1 + asn1IntegerLen value)) _ = _
  rw [length, outLen, asn1Element]
  congr 1
  rw [written]
  exact outer

theorem contextualMemoryChunk_eq (enc : Asn1Encoder) (tag : UInt8) (lt : tagId < 31)
    (fits : (tlv (ER_TAG_CONTEXTUAL ||| tagId) (tlv tag bytes)).length < 2 ^ 32) :
    winPrAsn1EncContextualMemoryChunk enc tag tagId bytes =
      asn1Element enc (tlv (ER_TAG_CONTEXTUAL ||| tagId) (tlv tag bytes)) := by
  have fits' := lt_of_le_of_lt (length_le_tlv _ _) fits
  have fits'' := lt_of_le_of_lt (length_le_tlv _ _) fits'
  obtain ⟨len, -⟩ := @memoryChunk_eq tag bytes fits''
  obtain ⟨outLen, -⟩ := @memoryChunk_eq (ER_TAG_CONTEXTUAL ||| tagId) (tlv tag bytes) fits'
  rw [winPrAsn1EncContextualMemoryChunk, assertValidTag_eq lt]
  change asn1WriteElement enc (1 + lenBytes (1 + lenBytes bytes.length + bytes.length) + _) _ = _
  rw [len, outLen, asn1WriteHeader_eq _ fits', asn1WriteHeader_eq _ fits'']
  rfl

theorem contextualRawContent_eq (enc : Asn1Encoder) (lt : tagId < 31)
    (fits : (tlv (ER_TAG_CONTEXTUAL ||| tagId) bytes).length < 2 ^ 32) :
    winPrAsn1EncContextualRawContent enc tagId bytes = asn1Element enc
    (tlv (ER_TAG_CONTEXTUAL ||| tagId) bytes) := by
  obtain ⟨length, written⟩ :=
    @memoryChunk_eq (ER_TAG_CONTEXTUAL ||| tagId) bytes (lt_of_le_of_lt (length_le_tlv _ _) fits)
  rw [winPrAsn1EncContextualRawContent, assertValidTag_eq lt, length, written, asn1Element]
  rfl

theorem contextualBoolean_eq (enc : Asn1Encoder) (lt : tagId < 31) (value : Bool) :
    winPrAsn1EncContextualBoolean enc tagId value = asn1Element enc
      (tlv (ER_TAG_CONTEXTUAL ||| tagId) (tlv ER_TAG_BOOLEAN [if value then 0xff else 0])) := by
  have elem : tlv (ER_TAG_CONTEXTUAL ||| tagId) [ER_TAG_BOOLEAN, 1, if value then 0xff else 0] =
      [ER_TAG_CONTEXTUAL ||| tagId, 3, ER_TAG_BOOLEAN, 1, if value then 0xff else 0] := by
    rw [tlv]
    rfl
  rw [winPrAsn1EncContextualBoolean, assertValidTag_eq lt, boolean_eq_tlv, elem, asn1Element]
  rfl

theorem asn1Value_eq (enc : Asn1Encoder) (admissible : (Asn1Call.value context content).Admissible)
    (fits : (inContext context content.serialise).length < 2 ^ 32) :
    asn1Value enc context content = asn1Element enc (inContext context content.serialise) := by
  cases context with
  | none =>
    cases content with
    | integer value | enumerated value => exact integerLike_eq enc _ value
    | boolean value =>
      rfl
    | oid bytes | octetString bytes | ia5String string => exact memoryChunkLike_eq enc _ fits
    | raw bytes => rfl
  | some tagId =>
    have lt := admissible.1 tagId rfl
    cases content with
    | integer value | enumerated value => exact contextualIntegerLike_eq enc _ lt value
    | boolean value => exact contextualBoolean_eq enc lt value
    | oid bytes | octetString bytes | ia5String string => exact contextualMemoryChunk_eq enc _ lt fits
    | raw bytes => exact contextualRawContent_eq enc lt fits

theorem inContext_ne_nil (admissible : (Asn1Call.value context content).Admissible) :
    inContext context content.serialise ≠ [] := by
  cases context with
  | some _ => exact cons_ne_nil _ _
  | none =>
    cases content with
    | raw bytes => exact admissible.2 bytes rfl
    | _ => exact cons_ne_nil _ _

theorem asn1Value_call (h : enc.Holds (bytes :: outer))
    (admissible : (Asn1Call.value context content).Admissible)
    (fits : (inContext context content.serialise).length < 2 ^ 32) :
    Call (asn1Value enc context content) (inContext context content.serialise).length enc.containers
      ((bytes ++ inContext context content.serialise) :: outer) := by
  rw [asn1Value_eq enc admissible fits]
  exact asn1WriteElement_call h (inContext_ne_nil admissible)

/-! ## Containers -/

def containerOf (id : Nat) : Asn1Opening → Asn1EncContainer
  | .app tagId => ⟨id, false, tagId, .app⟩
  | .seq none => ⟨id, false, 0, .seq⟩
  | .seq (some tagId) => ⟨id, true, tagId, .seq⟩
  | .set none => ⟨id, false, 0, .set⟩
  | .set (some tagId) => ⟨id, true, tagId, .set⟩
  | .octetString none => ⟨id, false, 0, .octetString⟩
  | .octetString (some tagId) => ⟨id, true, tagId, .octetString⟩
  | .contextual tagId => ⟨id, true, tagId, .contextOnly⟩

theorem containerOf_id (opn : Asn1Opening) : (containerOf id opn).headerChunkId = id := by
  unfold containerOf
  split <;> rfl

theorem asn1Start_eq (enc : Asn1Encoder) (admissible : (Asn1Call.start opn).Admissible) :
    asn1Start enc opn = .ok { enc with
        position := enc.position + headerRoom (containerOf enc.chunks.length opn)
        chunks := enc.chunks ++ [⟨enc.position, headerRoom (containerOf enc.chunks.length opn), 0⟩]
        containers := containerOf enc.chunks.length opn :: enc.containers } := by
  have last : ∀ chunk : Asn1Chunk, (enc.chunks ++ [chunk]).length - 1 = enc.chunks.length := by simp
  have opened : ∀ (ctype : ContainerType) (tag : UInt8) (contextual : Bool) (maxLen : Nat), maxLen ≠ 0 →
      getAsn1Container enc ctype tag contextual maxLen = .ok { enc with
          position := enc.position + maxLen
          chunks := enc.chunks ++ [⟨enc.position, maxLen, 0⟩]
          containers := ⟨enc.chunks.length, contextual, tag, ctype⟩ :: enc.containers } := by
    intro ctype tag contextual maxLen positive
    simp only [getAsn1Container, asn1encGetFreeChunk, winprAssert, if_pos positive,
      Bind.bind, Except.bind,
      Pure.pure, Except.pure, reserveChunk, Bool.false_eq_true, if_false, last]
  cases opn with
  | app tagId =>
    rw [asn1Start, winPrAsn1EncAppContainer, assertValidTag_eq admissible]
    exact opened .app tagId false 6 (by decide)
  | contextual tagId => exact opened _ _ _ _ (by decide)
  | seq context | set context | octetString context => cases context <;> exact opened _ _ _ _ (by decide)

structure Headers (container : Asn1EncContainer) (inner headers : List UInt8) : Prop where
  written : asn1WriteHeaders container inner.length = .ok headers
  size : outerHeaderBytes container inner.length = headers.length
  room : headers.length ≤ headerRoom container

theorem shortestLength_length_le (fits : n < 2 ^ 32) : (shortestLength n).length ≤ 5 := by
  rw [← lenBytes_eq fits]
  exact lenBytes_le n

theorem headers_plain (plain : container.contextual = false)
    (byte : containerByte container = some tag) (fits : inner.length < 2 ^ 32) :
    Headers container inner (tag :: shortestLength inner.length) := by
  have lt := shortestLength_length_le fits
  refine ⟨?_, ?_, ?_⟩
  · rw [asn1WriteHeaders, asn1OuterHeader, plain, asn1InnerHeader, byte]
    exact congrArg (· >>= fun inner => pure ([] ++ inner)) (asn1WriteHeader_eq tag fits)
  · simp [outerHeaderBytes, innerHeaderBytes, plain, byte, lenBytes_eq fits, add_comm]
  rw [headerRoom, plain, length_cons, if_neg (by simp)]
  omega

theorem headers_context (contextual : container.contextual = true)
    (byte : containerByte container = none) (fits : inner.length < 2 ^ 32) :
    Headers container inner ((ER_TAG_CONTEXTUAL ||| container.tag) :: shortestLength inner.length) := by
  have lt := shortestLength_length_le fits
  have none : innerHeaderBytes container inner.length = 0 := by
    rw [innerHeaderBytes, byte]
    rfl
  refine ⟨?_, ?_, ?_⟩
  · rw [asn1WriteHeaders, asn1OuterHeader, contextual, none, asn1InnerHeader, byte, zero_add, if_pos rfl,
      asn1WriteHeader_eq _ fits]
    exact congrArg Except.ok (append_nil _)
  · simp [outerHeaderBytes, none, contextual, lenBytes_eq fits, add_comm]
  rw [headerRoom, byte, length_cons, if_neg (by simp)]
  omega

theorem headers_both (contextual : container.contextual = true)
    (byte : containerByte container = some tag) (fits : (tlv tag inner).length < 2 ^ 32) :
    Headers container inner
    ((ER_TAG_CONTEXTUAL ||| container.tag) :: shortestLength (tlv tag inner).length ++
      tag :: shortestLength inner.length) := by
  have le := length_le_tlv tag inner
  have fits' : inner.length < 2 ^ 32 := by omega
  have lt := shortestLength_length_le fits
  have lt' := shortestLength_length_le fits'
  have header : innerHeaderBytes container inner.length = 1 + (shortestLength inner.length).length := by
    rw [innerHeaderBytes, byte, lenBytes_eq fits']
    rfl
  have total : innerHeaderBytes container inner.length + inner.length = (tlv tag inner).length := by
    rw [header, tlv_length]
  refine ⟨?_, ?_, ?_⟩
  · have own : asn1InnerHeader container inner.length = .ok (tag :: shortestLength inner.length) := by
      rw [asn1InnerHeader, byte]
      exact asn1WriteHeader_eq tag fits'
    rw [asn1WriteHeaders, asn1OuterHeader, contextual, total, if_pos rfl, asn1WriteHeader_eq _ fits, own]
    rfl
  · rw [outerHeaderBytes, total, header, contextual, if_pos rfl, lenBytes_eq fits]
    simp
    omega
  rw [headerRoom, if_pos ⟨contextual, by rw [byte]; rfl⟩]
  simp
  omega

theorem exists_headers (fits : (opn.serialise inner).length < 2 ^ 32) :
    ∃ headers, Headers (containerOf id opn) inner headers ∧ opn.serialise inner = headers ++ inner := by
  have both :
      ∀ {tagId tag : UInt8}, (tlv (ER_TAG_CONTEXTUAL ||| tagId) (tlv tag inner)).length < 2 ^ 32 →
      (tlv tag inner).length < 2 ^ 32 := fun h => lt_of_le_of_lt (length_le_tlv _ _) h
  have one : ∀ {tag : UInt8}, (tlv tag inner).length < 2 ^ 32 → inner.length < 2 ^ 32 := fun h =>
    lt_of_le_of_lt (length_le_tlv _ _) h
  have regroup : ∀ tagId tag : UInt8, tlv (ER_TAG_CONTEXTUAL ||| tagId) (tlv tag inner) =
      (ER_TAG_CONTEXTUAL ||| tagId) :: shortestLength (tlv tag inner).length ++
        tag :: shortestLength inner.length ++ inner := by
    simp [tlv]
  cases opn with
  | app tagId => exact ⟨_, headers_plain rfl rfl (one fits), rfl⟩
  | contextual tagId => exact ⟨_, headers_context rfl rfl (one fits), rfl⟩
  | seq context | set context | octetString context =>
    cases context with
    | none => exact ⟨_, headers_plain rfl rfl (one fits), rfl⟩
    | some tagId => exact ⟨_, headers_both rfl rfl (both fits), regroup tagId _⟩

theorem inner_small (lt : (opn.serialise inner).length < 2 ^ 32) : inner.length < 2 ^ 32 := by
  obtain ⟨_, -, elem⟩ := exists_headers 0 lt
  rw [elem, length_append] at lt
  omega

theorem endContainer_call {id : Nat} (innermost : enc.containers = containerOf id opn :: containers)
    (h : enc.Holds (inner :: bytes :: outer)) (fits : (opn.serialise inner).length < 2 ^ 32) :
    Call (winPrAsn1EncEndContainer enc) (opn.serialise inner).length containers
    ((bytes ++ opn.serialise inner) :: outer) := by
  obtain ⟨headers, ⟨written, size, _⟩, elem⟩ := exists_headers id fits
  unfold Asn1Encoder.Holds at h
  rw [innermost] at h
  obtain ⟨front, header, content, middle, chunks, rfl, h, here, _, _, laid⟩ := h.innermost
  have innLen :
      ((enc.chunks.drop (front.length + 1)).map (·.used)).sum = (contents enc.pool content).length := by
    rw [chunks, contents_length, ← drop_drop, drop_left, drop_succ_cons, drop_zero]
  have hdrChunk : enc.chunks.getD front.length ⟨0, 0, 0⟩ = header := by simp [chunks]
  -- where the headers go
  obtain ⟨offset, offset_eq⟩ : ∃ offset,
    offset = header.poolOffset + (header.capacity - headers.length) := ⟨_, rfl⟩
  have closed : enc.chunks.set front.length ⟨offset, headers.length, headers.length⟩ =
      front ++ ⟨offset, headers.length, headers.length⟩ :: content := by simp [chunks]
  refine ⟨⟨blit enc.pool offset headers, enc.position,
    front ++ ⟨offset, headers.length, headers.length⟩ :: content, containers⟩, ?_, rfl, ?_⟩
  · simp only [winPrAsn1EncEndContainer, innermost, here, innLen, size, hdrChunk,
      ← offset_eq, written, closed,
      winprAssert, le_refl, if_true, Bind.bind, Except.bind, Pure.pure, Except.pure]
    rw [elem, length_append]
  have outside : ∀ i, i < offset ∨ header.poolOffset + header.capacity ≤ i →
      blit enc.pool offset headers i = enc.pool i := by
    intro i _
    apply blit_of_outside
    omega
  have rest : Laid (offset + headers.length) content enc.position := by
    rwa [show offset + headers.length = header.poolOffset + header.capacity by omega]
  have low : middle ≤ offset := by omega
  have tail : Laid middle (⟨offset, headers.length, headers.length⟩ :: content) enc.position :=
    ⟨low, le_refl _, rest⟩
  have all := (h.congr fun i lt => outside i (Or.inl (by omega))).append tail
  have kept := laid.contents_congr fun i big _ => outside i (Or.inr big)
  rw [elem]
  unfold contents at all kept ⊢
  rw [flatMap_cons, block_blit, kept] at all
  exact all

theorem asn1Run_cons {call : Asn1Call} {size : Nat} (fst : asn1Call enc call = .ok (enc', size))
    (calls : List Asn1Call) :
    asn1Run enc (call :: calls) = (asn1Run enc' calls >>= fun res => pure (res.1, size :: res.2)) := by
  rw [asn1Run, fst]
  rfl

theorem asn1Run_append {calls : List Asn1Call} {sizes : List Nat}
    (fst : asn1Run enc calls = .ok (enc', sizes)) (later : List Asn1Call) :
    asn1Run enc (calls ++ later) = (asn1Run enc' later >>= fun res => pure (res.1, sizes ++ res.2)) := by
  induction calls generalizing enc sizes with
  | nil =>
    cases fst
    rw [nil_append]
    cases asn1Run enc' later <;> rfl
  | cons _ calls ih =>
    obtain ⟨⟨_, _⟩, step, fst⟩ := bind_eq_ok.mp fst
    obtain ⟨⟨_, _⟩, rest, fst⟩ := bind_eq_ok.mp fst
    cases fst
    rw [cons_append, asn1Run_cons step, ih rest]
    cases asn1Run enc' later <;> rfl

theorem asn1Run_tree (tree : Asn1Tree) (h : enc.Holds (bytes :: outer))
    (admissible : ∀ call ∈ tree.calls, call.Admissible) (fits : tree.serialise.length < 2 ^ 32) :
    ∃ enc', asn1Run enc tree.calls = .ok (enc', tree.returns) ∧ enc'.containers = enc.containers ∧
      enc'.Holds ((bytes ++ tree.serialise) :: outer) := by
  induction tree generalizing enc bytes outer with
  | done => exact ⟨enc, rfl, rfl, by rwa [Asn1Tree.serialise, append_nil]⟩
  | value context content next ih =>
    rw [Asn1Tree.serialise, length_append] at fits
    obtain ⟨enc₁, fst, same, h₁⟩ :=
      asn1Value_call h (admissible _ mem_cons_self) (lt_of_le_of_lt (Nat.le_add_right _ _) fits)
    obtain ⟨enc₂, rest, same', h₂⟩ := ih h₁ (fun call mem => admissible call (mem_cons_of_mem _ mem))
      (lt_of_le_of_lt (Nat.le_add_left _ _) fits)
    refine ⟨enc₂, ?_, same'.trans same, ?_⟩
    · have fst' : asn1Call enc (.value context content) =
          .ok (enc₁, (inContext context content.serialise).length) := fst
      rw [Asn1Tree.calls, asn1Run_cons fst', rest]
      rfl
    · rwa [Asn1Tree.serialise, ← append_assoc]
  | container opn inner next innHypothesis nextHypothesis =>
    rw [Asn1Tree.serialise, length_append] at fits
    have admissible' : ∀ call ∈ inner.calls ++ Asn1Call.endContainer :: next.calls, call.Admissible :=
      fun call mem => admissible call (mem_cons_of_mem _ mem)
    have lt : (opn.serialise inner.serialise).length < 2 ^ 32 := by omega
    have start := asn1Start_eq enc (admissible _ mem_cons_self)
    obtain ⟨enc₁, opened, containers₁, h₁⟩ : ∃ enc₁, asn1Start enc opn = .ok enc₁ ∧
        enc₁.containers = containerOf enc.chunks.length opn :: enc.containers ∧
        enc₁.Holds ([] :: bytes :: outer) :=
      ⟨_, start, rfl, .opened h (containerOf_id _ _) (le_refl _) rfl rfl rfl⟩
    have fst : asn1Call enc (.start opn) = .ok (enc₁, 1) := by
      rw [asn1Call, opened]
      rfl
    obtain ⟨enc₂, elems, containers₂, h₂⟩ := innHypothesis h₁
      (fun call mem => admissible' call (mem_append_left _ mem)) (inner_small lt)
    obtain ⟨enc₃, closed, containers₃, h₃⟩ :=
      endContainer_call (containers₂.trans containers₁) h₂ lt
    obtain ⟨enc₄, rest, containers₄, _⟩ := nextHypothesis h₃
      (fun call mem => admissible' call (mem_append_right _ (mem_cons_of_mem _ mem)))
      (by omega)
    refine ⟨enc₄, ?_, containers₄.trans containers₃, ?_⟩
    · have last :
        asn1Call enc₂ .endContainer = .ok (enc₃, (opn.serialise inner.serialise).length) := closed
      rw [Asn1Tree.calls, asn1Run_cons fst, asn1Run_append elems, asn1Run_cons last, rest]
      rfl
    · rwa [Asn1Tree.serialise, ← append_assoc]

end KvmServer.Winpr
