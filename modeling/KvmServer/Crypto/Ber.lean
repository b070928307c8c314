import KvmServer.Winpr.Stream

/-! # BER integers (`ber.c`)

The writer, the function that announces its size and the reader each have their own table of ranges.
The writer casts with a check, so a value is only written where the cast of its branch admits it. -/

namespace KvmServer.Crypto
open Lib Winpr

def BER_CLASS_UNIV : Nat := 0x00
def BER_CLASS_CTXT : Nat := 0x80
def BER_PRIMITIVE : Nat := 0x00
def BER_CONSTRUCT : Nat := 0x20
def BER_TAG_MASK : Nat := 0x1F
def BER_TAG_INTEGER : Nat := 0x02

def berPc (pc : Bool) : Nat := if pc then BER_CONSTRUCT else BER_PRIMITIVE

def berTag (tagClass : Nat) (tag : Nat) (pc : Bool) : Nat :=
    tagClass ||| berPc pc ||| (BER_TAG_MASK &&& tag)

/-! ## Writers -/

def berWriteLength (length : Nat) (s : WStream) : Except Stop (Nat × WStream) :=
  if length > 0xFF then do
    winprAssert (length ≤ 0xFFFF)
    winprAssert (streamGetRemainingCapacity s ≥ 3)
    let s ← streamWriteBE 1 (0x80 ^^^ 2) s
    let s ← streamWriteBE 2 length s
    return (3, s)
  else do
    winprAssert (length ≤ 0xFF)
    if length > 0x7F then do
      winprAssert (streamGetRemainingCapacity s ≥ 2)
      let s ← streamWriteBE 1 (0x80 ^^^ 1) s
      let s ← streamWriteBE 1 length s
      return (2, s)
    else do
      winprAssert (streamGetRemainingCapacity s ≥ 1)
      let s ← streamWriteBE 1 length s
      return (1, s)

def berWriteUniversalTag (tag : Nat) (pc : Bool) (s : WStream) : Except Stop (Nat × WStream) := do
  let s ← streamWriteBE 1 (berTag BER_CLASS_UNIV tag pc) s
  return (1, s)

variable (tag : UInt8)

def berWriteContextualTag (length : Nat) (pc : Bool) (s : WStream) : Except Stop (Nat × WStream) := do
  winprAssert (streamGetRemainingCapacity s ≥ 1)
  let s ← streamWriteBE 1 (berTag BER_CLASS_CTXT tag.toNat pc) s
  let (n, s) ← berWriteLength length s
  return (1 + n, s)

/-- The last two branches of the source are the same. -/
def berWriteInteger (value : UInt32) (s : WStream) : Except Stop (Nat × WStream) :=
  if value.toNat < 0x80 then do
    let (_, s) ← berWriteUniversalTag BER_TAG_INTEGER false s
    let (_, s) ← berWriteLength 1 s
    let byte ← assertingCast 8 value.toNat
    let s ← streamWriteBE 1 byte s
    return (3, s)
  else if value.toNat < 0x8000 then do
    let (_, s) ← berWriteUniversalTag BER_TAG_INTEGER false s
    let (_, s) ← berWriteLength 2 s
    let word ← assertingCast 16 value.toNat
    let s ← streamWriteBE 2 word s
    return (4, s)
  else if value.toNat < 0x800000 then do
    let (_, s) ← berWriteUniversalTag BER_TAG_INTEGER false s
    let (_, s) ← berWriteLength 3 s
    let byte ← assertingCast 8 (value.toNat >>> 16)
    let s ← streamWriteBE 1 byte s
    let word ← assertingCast 16 value.toNat
    let s ← streamWriteBE 2 word s
    return (5, s)
  else do
    let (_, s) ← berWriteUniversalTag BER_TAG_INTEGER false s
    let (_, s) ← berWriteLength 4 s
    let s ← streamWriteBE 4 value.toNat s
    return (6, s)

/-! ## Sizes -/

def berSizeofLength (length : Nat) : Nat := if length > 0xFF then 3 else if length > 0x7F then 2 else 1

def berSizeofContextualTag (length : Nat) : Nat := 1 + berSizeofLength length

def berSizeofInteger (value : UInt32) : Nat :=
  if value.toNat < 0x80 then 3
  else if value.toNat < 0x8000 then 4
  else if value.toNat < 0x800000 then 5
  else 6

def berSizeofContextualInteger (value : UInt32) : Nat :=
  berSizeofContextualTag (berSizeofInteger value) + berSizeofInteger value

def berWriteContextualInteger (value : UInt32) (s : WStream) : Except Stop (Nat × WStream) := do
  let len := berSizeofInteger value
  let s ← streamEnsureRemainingCapacity s (len + 5)
  let (n, s) ← berWriteContextualTag tag len true s
  let (_, s) ← berWriteInteger value s
  return (len + n, s)

/-! ## Readers -/

def berReadLength (bytes : List UInt8) : Option (Nat × List UInt8) :=
  match streamReadBE 1 bytes with
  | none => none
  | some (byte, bytes) =>
    if byte &&& 0x80 ≠ 0 then
      let count := byte &&& 0x7F
      if bytes.length < count then none
      else if count = 1 then streamReadBE 1 bytes
      else if count = 2 then streamReadBE 2 bytes
      else none
    else some (byte, bytes)

def berReadTag (expect : Nat) (bytes : List UInt8) : Option (List UInt8) :=
  match streamReadBE 1 bytes with
  | none => none
  | some (byte, bytes) => if byte ≠ expect then none else some bytes

def berReadUniversalTag (tag : Nat) (pc : Bool) (bytes : List UInt8) : Option (List UInt8) :=
  berReadTag (berTag BER_CLASS_UNIV tag pc) bytes

def berReadContextualTag (pc : Bool) (bytes : List UInt8) : Option (Nat × List UInt8) :=
  match berReadTag (berTag BER_CLASS_CTXT tag.toNat pc) bytes with
  | none => none
  | some bytes => berReadLength bytes

def berReadInteger (bytes : List UInt8) : Option (Nat × List UInt8) :=
  match berReadUniversalTag BER_TAG_INTEGER false bytes with
  | none => none
  | some bytes =>
    match berReadLength bytes with
    | none => none
    | some (length, bytes) =>
      if bytes.length < length then none
      else if length = 1 then streamReadBE 1 bytes
      else if length = 2 then streamReadBE 2 bytes
      else if length = 3 then
        match streamReadBE 1 bytes with
        | none => none
        | some (byte, bytes) =>
          match streamReadBE 2 bytes with
          | none => none
          | some (word, bytes) => some (word + ((byte <<< 16) &&& 0xFF0000), bytes)
      else if length = 4 then streamReadBE 4 bytes
      else none

/-! ## What the writers append -/

def Puts (call : WStream → Except Stop (Nat × WStream)) (n : Nat) (bytes : List UInt8) : Prop :=
  ∀ s, bytes.length ≤ streamGetRemainingCapacity s →
    ∃ s', call s = .ok (n, s') ∧ Wrote s s' bytes ∧ s'.capacity = s.capacity

theorem remaining_of_wrote {s s' : WStream} {bs : List UInt8} (wrote : Wrote s s' bs)
    (cap : s'.capacity = s.capacity) :
    streamGetRemainingCapacity s' = streamGetRemainingCapacity s - bs.length := by
  unfold streamGetRemainingCapacity
  rw [wrote, cap, List.length_append, Nat.sub_add_eq]

variable {n x r : Nat} {value : UInt32}

theorem puts_streamWriteBE (lt : x < 2 ^ (8 * n)) :
    Puts (fun s => do return (r, ← streamWriteBE n x s)) r (beBytes n x) := by
  intro s room
  rw [beBytes_length] at room
  obtain ⟨s', written, cap⟩ := streamWriteBE_returns lt room
  exact ⟨s', bind_eq_ok.mpr ⟨s', written, rfl⟩, (streamWriteBE_ok written).2, cap⟩

variable {f : WStream → Except Stop (Nat × WStream)} {content : List UInt8} {len : Nat}

theorem Puts.seq {g c : WStream → Except Stop (Nat × WStream)} {m : Nat} {bs₁ bs₂ : List UInt8}
    (fst : Puts f n bs₁) (second : Puts g m bs₂)
    (chained : ∀ s s₁ s₂, f s = .ok (n, s₁) → g s₁ = .ok (m, s₂) → c s = .ok (r, s₂)) :
    Puts c r (bs₁ ++ bs₂) := by
  intro s room
  rw [List.length_append] at room
  obtain ⟨s₁, run₁, wrote₁, cap₁⟩ := fst s (by omega)
  have left := remaining_of_wrote wrote₁ cap₁
  obtain ⟨s₂, run₂, wrote₂, cap₂⟩ := second s₁ (by omega)
  exact ⟨s₂, chained s s₁ s₂ run₁ run₂, wrote₁.trans wrote₂, cap₂.trans cap₁⟩

theorem puts_berWriteUniversalTag (tag : Nat) (pc : Bool) (lt : berTag BER_CLASS_UNIV tag pc < 256) :
    Puts (berWriteUniversalTag tag pc) 1 (beBytes 1 (berTag BER_CLASS_UNIV tag pc)) :=
  puts_streamWriteBE lt

theorem puts_berWriteLength (short : len ≤ 0x7F) : Puts (berWriteLength len) 1 (beBytes 1 len) := by
  intro s room
  rw [beBytes_length] at room
  obtain ⟨s', written, cap⟩ := @streamWriteBE_returns s 1 len (by omega) room
  refine ⟨s', ?_, (streamWriteBE_ok written).2, cap⟩
  unfold berWriteLength winprAssert
  rw [if_neg (by omega), if_pos (by omega), if_neg (by omega), if_pos room, written]
  rfl

def berIntegerHeader (n : Nat) : List UInt8 :=
    beBytes 1 (berTag BER_CLASS_UNIV BER_TAG_INTEGER false) ++ beBytes 1 n

theorem Puts.integer {res : Nat} (short : n ≤ 0x7F) (body : Puts f res content) : Puts (fun s => do
      let (_, s) ← berWriteUniversalTag BER_TAG_INTEGER false s
      let (_, s) ← berWriteLength n s
      f s) res (berIntegerHeader n ++ content) := by
  have header :=
    (puts_berWriteUniversalTag BER_TAG_INTEGER false (by decide)).seq (puts_berWriteLength short)
    (c := fun s => do
      let (_, s) ← berWriteUniversalTag BER_TAG_INTEGER false s
      berWriteLength n s)
    (r := 1)
    (fun s s₁ s₂ tag len => bind_eq_ok.mpr ⟨_, tag, len⟩)
  refine header.seq body fun s s₁ s₂ run₁ run₂ => ?_
  obtain ⟨a, tag, len⟩ := bind_eq_ok.mp run₁
  exact bind_eq_ok.mpr ⟨a, tag, bind_eq_ok.mpr ⟨_, len, run₂⟩⟩

theorem puts_cast (lt : x < 2 ^ (8 * n)) : Puts (fun s => do
      let y ← assertingCast (8 * n) x
      let s ← streamWriteBE n y s
      return (r, s)) r (beBytes n x) := by
  intro s room
  obtain ⟨s', run, wrote, cap⟩ := puts_streamWriteBE (r := r) lt s room
  exact ⟨s', bind_eq_ok.mpr ⟨x, if_pos lt, run⟩, wrote, cap⟩

def berIntegerContent (value : Nat) : List UInt8 :=
  if value < 0x80 then beBytes 1 value
  else if value < 0x8000 then beBytes 2 value
  else if value < 0x800000 then beBytes 1 (value >>> 16) ++ beBytes 2 value
  else beBytes 4 value

def berIntegerBytes (value : Nat) : List UInt8 :=
  berIntegerHeader (berIntegerContent value).length ++ berIntegerContent value

theorem berIntegerBytes_length (value : UInt32) :
    (berIntegerBytes value.toNat).length = berSizeofInteger value := by
  unfold berIntegerBytes berIntegerHeader berIntegerContent berSizeofInteger
  split
  · simp
  split
  · simp
  · split <;> simp

/-- Between 0x10000 and 0x800000 a cast of the writer fails its assertion. -/
theorem puts_berWriteInteger (admitted : ¬(0x10000 ≤ value.toNat ∧ value.toNat < 0x800000)) :
    Puts (berWriteInteger value) (berSizeofInteger value) (berIntegerBytes value.toNat) := by
  by_cases one : value.toNat < 0x80
  · have bs : berIntegerBytes value.toNat = berIntegerHeader 1 ++ beBytes 1 value.toNat := by
      simp [berIntegerBytes, berIntegerContent, one]
    have size : berSizeofInteger value = 3 := if_pos one
    rw [bs, size]
    intro s room
    rw [berWriteInteger, if_pos one]
    exact Puts.integer (n := 1) (by decide) (puts_cast (n := 1) (by omega)) s room
  by_cases two : value.toNat < 0x8000
  · have bs : berIntegerBytes value.toNat = berIntegerHeader 2 ++ beBytes 2 value.toNat := by
      simp [berIntegerBytes, berIntegerContent, one, two]
    have size : berSizeofInteger value = 4 := by rw [berSizeofInteger, if_neg one, if_pos two]
    rw [bs, size]
    intro s room
    rw [berWriteInteger, if_neg one, if_pos two]
    exact Puts.integer (n := 2) (by decide) (puts_cast (n := 2) (by omega)) s room
  by_cases three : value.toNat < 0x800000
  · have high : value.toNat >>> 16 < 2 ^ (8 * 1) := by
      omega
    have content :=
      (puts_cast (n := 1) (r := 0) high).seq (puts_cast (n := 2) (x := value.toNat) (r := 5) (by omega))
      (c := fun s => do
        let byte ← assertingCast 8 (value.toNat >>> 16)
        let s ← streamWriteBE 1 byte s
        let word ← assertingCast 16 value.toNat
        let s ← streamWriteBE 2 word s
        return (5, s))
      (r := 5) ?_
    · have bs : berIntegerBytes value.toNat =
          berIntegerHeader 3 ++ (beBytes 1 (value.toNat >>> 16) ++ beBytes 2 value.toNat) := by
        simp [berIntegerBytes, berIntegerContent, one, two, three]
      have size : berSizeofInteger value = 5 := by
        rw [berSizeofInteger, if_neg one, if_neg two, if_pos three]
      rw [bs, size]
      intro s room
      rw [berWriteInteger, if_neg one, if_neg two, if_pos three]
      exact Puts.integer (n := 3) (by decide) content s room
    intro s s₁ _ run₁ run₂
    obtain ⟨byte, cast, rest⟩ := bind_eq_ok.mp run₁
    obtain ⟨_, written, same⟩ := bind_eq_ok.mp rest
    cases same
    exact bind_eq_ok.mpr ⟨byte, cast, bind_eq_ok.mpr ⟨s₁, written, run₂⟩⟩
  · have bs : berIntegerBytes value.toNat = berIntegerHeader 4 ++ beBytes 4 value.toNat := by
      simp [berIntegerBytes, berIntegerContent, one, two, three]
    have size : berSizeofInteger value = 6 := by
      rw [berSizeofInteger, if_neg one, if_neg two, if_neg three]
    rw [bs, size]
    intro s room
    rw [berWriteInteger, if_neg one, if_neg two, if_neg three]
    exact Puts.integer (n := 4) (by decide) (puts_streamWriteBE (n := 4) value.toNat_lt) s room

theorem berWriteInteger_fails (three : 0x10000 ≤ value.toNat ∧ value.toNat < 0x800000)
    (s : WStream) (r : Nat × WStream) : berWriteInteger value s ≠ .ok r := by
  intro res
  rw [berWriteInteger, if_neg (by omega), if_neg (by omega), if_pos three.2] at res
  simp only [bind_eq_ok] at res
  obtain ⟨_, _, _, _, _, _, _, _, _, cast, _⟩ := res
  have failed : assertingCast 16 value.toNat = .error .assertion := if_neg (by omega)
  rw [failed] at cast
  cases cast

/-! ## Reading back -/

theorem berReadTag_beBytes {tag : Nat} (lt : tag < 256) (rest : List UInt8) :
    berReadTag tag (beBytes 1 tag ++ rest) = some rest := by
  rw [berReadTag, streamReadBE_beBytes, Nat.mod_eq_of_lt (by omega)]
  exact if_neg (not_not.mpr rfl)

theorem berReadLength_short (short : len ≤ 0x7F) (rest : List UInt8) :
    berReadLength (beBytes 1 len ++ rest) = some (len, rest) := by
  have unmarked : len &&& 0x80 = 0 := by
    have all : ∀ n, n < 128 → n &&& 0x80 = 0 := by decide +kernel
    exact all len (by omega)
  rw [berReadLength, streamReadBE_beBytes, Nat.mod_eq_of_lt (by omega)]
  exact if_neg (not_not.mpr unmarked)

theorem berReadInteger_header (short : n ≤ 0x7F) (len : content.length = n) :
    berReadInteger (berIntegerHeader n ++ content) =
      if n = 1 then streamReadBE 1 content else if n = 2 then streamReadBE 2 content else if n = 3 then
        match streamReadBE 1 content with
        | none => none
        | some (byte, bs) =>
          match streamReadBE 2 bs with
          | none => none
          | some (word, bs) => some (word + ((byte <<< 16) &&& 0xFF0000), bs)
      else if n = 4 then streamReadBE 4 content
      else none := by
  have tag : berReadUniversalTag BER_TAG_INTEGER false (berIntegerHeader n ++ content) =
      some (beBytes 1 n ++ content) := by
    exact berReadTag_beBytes (by decide) _
  rw [berReadInteger, tag]
  dsimp only
  rw [berReadLength_short short]
  dsimp only
  rw [if_neg (by omega)]

theorem streamReadBE_exact (lt : x < 2 ^ (8 * n)) : streamReadBE n (beBytes n x) = some (x, []) := by
  have read := streamReadBE_beBytes n x []
  rwa [List.append_nil, Nat.mod_eq_of_lt lt] at read

theorem berReadInteger_berIntegerBytes (admitted : ¬(0x10000 ≤ value.toNat ∧ value.toNat < 0x800000)) :
    berReadInteger (berIntegerBytes value.toNat) = some (value.toNat, []) := by
  unfold berIntegerBytes berIntegerContent
  split
  · rw [beBytes_length, berReadInteger_header (by decide) (beBytes_length _ _)]
    exact streamReadBE_exact (n := 1) (by omega)
  split
  · rw [beBytes_length, berReadInteger_header (by decide) (beBytes_length _ _)]
    exact streamReadBE_exact (n := 2) (by omega)
  split
  · have high : value.toNat >>> 16 = 0 := by
      omega
    rw [List.length_append, beBytes_length, beBytes_length,
      berReadInteger_header (by decide) (by rw [List.length_append, beBytes_length, beBytes_length]),
      high, streamReadBE_beBytes]
    simp only [streamReadBE_exact (n := 2) (x := value.toNat) (by omega)]
    rfl
  · rw [beBytes_length, berReadInteger_header (by decide) (beBytes_length _ _)]
    exact streamReadBE_exact (n := 4) value.toNat_lt

/-! ## Writers, sizes and readers -/

theorem berTag_lt : berTag BER_CLASS_CTXT tag.toNat true < 256 := by
  have all : ∀ t, t < 256 → berTag BER_CLASS_CTXT t true < 256 := by decide +kernel
  exact all _ tag.toNat_lt

theorem berWriteContextualInteger_ok (admitted : ¬(0x10000 ≤ value.toNat ∧ value.toNat < 0x800000))
    (tag : UInt8) (s : WStream) (pos : 0 < s.capacity) : ∃ s',
    berWriteContextualInteger tag value s = .ok (berSizeofContextualInteger value, s') ∧
      Wrote s s' (beBytes 1 (berTag BER_CLASS_CTXT tag.toNat true) ++
        (beBytes 1 (berSizeofInteger value) ++ berIntegerBytes value.toNat)) := by
  have size : berSizeofInteger value ≤ 6 := by
    unfold berSizeofInteger
    repeat' split
    all_goals omega
  obtain ⟨s₁, room⟩ := ensureRemaining_returns s pos (berSizeofInteger value + 5)
  obtain ⟨wrote₁, _⟩ := ensureRemaining_ok room
  have rem : berSizeofInteger value + 5 ≤ streamGetRemainingCapacity s₁ := by
    have same : s₁.written.length = s.written.length := by rw [wrote₁, List.append_nil]
    unfold streamGetRemainingCapacity
    omega
  obtain ⟨s₂, tagRun, tagWrote, tagCap⟩ := puts_streamWriteBE (n := 1) (r := 0) (berTag_lt tag) s₁
    (by rw [beBytes_length]; omega)
  obtain ⟨_, tagWritten, same⟩ := bind_eq_ok.mp tagRun
  cases same
  have left₂ := remaining_of_wrote tagWrote tagCap
  rw [beBytes_length] at left₂
  obtain ⟨s₃, lenRun, lenWrote, lenCap⟩ := @puts_berWriteLength (berSizeofInteger value)
    (by omega) s₂ (by rw [beBytes_length]; omega)
  have left₃ := remaining_of_wrote lenWrote lenCap
  rw [beBytes_length] at left₃
  obtain ⟨s₄, intRun, intWrote, -⟩ :=
    puts_berWriteInteger admitted s₃ (by rw [berIntegerBytes_length]; omega)
  refine ⟨s₄, ?_, wrote₁.trans (tagWrote.trans (lenWrote.trans intWrote))⟩
  have contextual : berWriteContextualTag tag (berSizeofInteger value) true s₁ = .ok (1 + 1, s₃) :=
    bind_eq_ok.mpr
      ⟨(), if_pos (by omega), bind_eq_ok.mpr ⟨s₂, tagWritten, bind_eq_ok.mpr ⟨_, lenRun, rfl⟩⟩⟩
  have total : berSizeofContextualInteger value = berSizeofInteger value + (1 + 1) := by
    unfold berSizeofContextualInteger berSizeofContextualTag berSizeofLength
    rw [if_neg (by omega), if_neg (by omega), add_comm]
  rw [total]
  exact bind_eq_ok.mpr ⟨s₁, room, bind_eq_ok.mpr ⟨_, contextual, bind_eq_ok.mpr ⟨_, intRun, rfl⟩⟩⟩

/-- The plain writer completes with the announced size, and the reader gets the value back. -/
def BerIntegerRoundTrips (value : UInt32) : Prop :=
  ∀ s : WStream, berSizeofInteger value ≤ streamGetRemainingCapacity s →
    ∃ s' bytes, berWriteInteger value s = .ok (berSizeofInteger value, s') ∧ Wrote s s' bytes ∧
      bytes.length = berSizeofInteger value ∧ berReadInteger bytes = some (value.toNat, [])

def BerContextualIntegerRoundTrips (value : UInt32) : Prop :=
  ∀ s : WStream, 0 < s.capacity →
    ∃ s' bytes, berWriteContextualInteger tag value s = .ok (berSizeofContextualInteger value, s') ∧
      Wrote s s' bytes ∧ bytes.length = berSizeofContextualInteger value ∧
      ∃ inner, berReadContextualTag tag true bytes = some (berSizeofInteger value, inner) ∧
        berReadInteger inner = some (value.toNat, [])

/-- Writers, sizes and reader agree exactly on the values outside of `[0x10000, 0x800000)`. -/
theorem ber_integer_roundTrips_iff (tag : UInt8) (value : UInt32) :
    BerIntegerRoundTrips value ∧ BerContextualIntegerRoundTrips tag value ↔
      ¬(0x10000 ≤ value.toNat ∧ value.toNat < 0x800000) := by
  constructor
  · intro both three
    obtain ⟨s', _, run, -⟩ := both.1 ⟨[], 16, Nat.zero_le 16⟩ (by
      change _ ≤ 16
      unfold berSizeofInteger
      repeat' split
      all_goals omega)
    exact berWriteInteger_fails three _ _ run
  intro admitted
  have read := berReadInteger_berIntegerBytes admitted
  refine ⟨fun s room => ?_, fun s pos => ?_⟩
  · obtain ⟨s', run, wrote, -⟩ :=
      puts_berWriteInteger admitted s (by rw [berIntegerBytes_length]; exact room)
    exact ⟨s', _, run, wrote, berIntegerBytes_length value, read⟩
  obtain ⟨s', run, wrote⟩ := berWriteContextualInteger_ok admitted tag s pos
  have le : berSizeofInteger value ≤ 0x7F := by
    unfold berSizeofInteger
    repeat' split
    all_goals omega
  refine ⟨s', _, run, wrote, ?_, berIntegerBytes value.toNat, ?_, read⟩
  · rw [List.length_append, List.length_append, beBytes_length, beBytes_length, berIntegerBytes_length]
    unfold berSizeofContextualInteger berSizeofContextualTag berSizeofLength
    rw [if_neg (by omega), if_neg (by omega)]
    omega
  rw [berReadContextualTag, berReadTag_beBytes (berTag_lt tag)]
  exact berReadLength_short le _

/-- The first value the writer refuses: the low two bytes are cast with a check, but never masked. -/
theorem berWriteInteger_asserts :
    berWriteInteger 0x10000 ⟨[], 16, Nat.zero_le 16⟩ = .error .assertion := rfl

end KvmServer.Crypto
