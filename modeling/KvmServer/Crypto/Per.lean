import KvmServer.Winpr.Stream

/-! # Packed encoding rules (`per.c`)

The writers append to a stream, the readers take bytes from the front of one.  Each writer has a pure
description of the bytes it appends, and the range in which its reader understands them. -/

namespace KvmServer.Crypto
open Lib Winpr List Nat

/-! ## Writers -/

def perWriteLength (length : UInt16) (s : WStream) : Except Stop WStream :=
  if length.toNat > 0x7F then do
    let s ← streamEnsureRemainingCapacity s 2
    streamWriteBE 2 (length.toNat ||| 0x8000) s
  else do
    let s ← streamEnsureRemainingCapacity s 1
    streamWriteBE 1 length.toNat s

def perWriteChoice (choice : UInt8) (s : WStream) : Except Stop WStream := do
  let s ← streamEnsureRemainingCapacity s 1
  streamWriteBE 1 choice.toNat s

/-- The three branches of `per_write_integer` differ in the number of bytes only. -/
def perWriteIntegerBytes (n : Nat) (integer : UInt32) (s : WStream) : Except Stop WStream := do
  let s ← perWriteLength (UInt16.ofNat n) s
  let s ← streamEnsureRemainingCapacity s n
  let x ← assertingCast (8 * n) integer.toNat
  streamWriteBE n x s

def perWriteInteger (integer : UInt32) (s : WStream) : Except Stop WStream :=
  if integer.toNat ≤ 0xFF then perWriteIntegerBytes 1 integer s
  else if integer.toNat ≤ 0xFFFF then perWriteIntegerBytes 2 integer s
  else perWriteIntegerBytes 4 integer s

def perWriteInteger16 (integer min : UInt16) (s : WStream) : Except Stop WStream :=
  if min > integer then .error .refused
  else do
    let s ← streamEnsureRemainingCapacity s 2
    streamWriteBE 2 (integer.toNat - min.toNat) s

/-- `mlength = (length >= min) ? length - min : min` -/
def perStringLength (length min : UInt16) : UInt16 := if length ≥ min then length - min else min

def writeBytes : List UInt8 → WStream → Except Stop WStream
  | [], s => .ok s
  | byte :: bytes, s => do
    let s ← streamWriteBE 1 byte.toNat s
    writeBytes bytes s

def perWriteOctetString (octStr : List UInt8) (min : UInt16) (s : WStream) : Except Stop WStream := do
  let s ← perWriteLength (perStringLength (UInt16.ofNat octStr.length) min) s
  let s ← streamEnsureRemainingCapacity s octStr.length
  writeBytes octStr s

def writeDigits (c1 c2 : UInt8) (s : WStream) : Except Stop WStream :=
  if c1 < 0x30 ∨ c2 < 0x30 then .error .refused
  else do
    let num ← assertingCast 8 ((((c1 - 0x30) % 10).toNat <<< 4) ||| ((c2 - 0x30) % 10).toNat)
    streamWriteBE 1 num s

/-- The loop over pairs of digits; a missing last digit is a zero.  The counter has 16 bits, and
wraps. -/
def writeNumericLoop (numStr : List UInt8) : Nat → UInt16 → WStream → Except Stop WStream
  | 0, _, _ => .error .loops
  | fuel + 1, i, s =>
    if i.toNat < numStr.length then do
      let c2 := if i.toNat + 1 < numStr.length then numStr.getD (i.toNat + 1) 0 else 0x30
      let s ← writeDigits (numStr.getD i.toNat 0) c2 s
      writeNumericLoop numStr fuel (i + 2) s
    else .ok s

/-- Every turn of the loop but the last writes a byte. -/
def writeNumericString (numStr : List UInt8) (s : WStream) : Except Stop WStream :=
  writeNumericLoop numStr (streamGetRemainingCapacity s + 1) 0 s

def perWriteNumericString (numStr : List UInt8) (min : UInt16) (s : WStream) : Except Stop WStream := do
  let s ← perWriteLength (perStringLength (UInt16.ofNat numStr.length) min) s
  let s ← streamEnsureRemainingCapacity s numStr.length
  writeNumericString numStr s

/-! ## Readers -/

def perReadLength (bytes : List UInt8) : Option (Nat × List UInt8) :=
  match streamReadBE 1 bytes with
  | none => none
  | some (byte, bytes) =>
    if byte &&& 0x80 ≠ 0 then
      match streamReadBE 1 bytes with
      | none => none
      | some (low, bytes) => some (((byte &&& 0x7F) <<< 8) + low, bytes)
    else some (byte, bytes)

def perReadChoice (bytes : List UInt8) : Option (Nat × List UInt8) := streamReadBE 1 bytes

def perReadInteger (bytes : List UInt8) : Option (Nat × List UInt8) :=
  match perReadLength bytes with
  | none => none
  | some (length, bytes) =>
    if bytes.length < length then none
    else if length = 0 then some (0, bytes)
    else if length = 1 then streamReadBE 1 bytes
    else if length = 2 then streamReadBE 2 bytes
    else none

def perReadInteger16 (min : UInt16) (bytes : List UInt8) : Option (Nat × List UInt8) :=
  match streamReadBE 2 bytes with
  | none => none
  | some (integer, bytes) =>
    if integer > 0xFFFF - min.toNat then none else some (integer + min.toNat, bytes)

/-- The caller passes the string it expects; what is returned is the rest of the stream. -/
def perReadOctetString (octStr : List UInt8) (min : UInt16) (bytes : List UInt8) : Option (List UInt8) :=
  match perReadLength bytes with
  | none => none
  | some (mlength, bytes) =>
    if mlength + min.toNat ≠ octStr.length then none
    else if bytes.length < octStr.length then none
    else if bytes.take octStr.length = octStr then some (bytes.drop octStr.length) else none

def perReadNumericString (min : UInt16) (bytes : List UInt8) : Option (List UInt8) :=
  match perReadLength bytes with
  | none => none
  | some (mlength, bytes) =>
    let length := (mlength + min.toNat + 1) / 2
    if bytes.length < length then none else some (bytes.drop length)

/-! ## Lengths -/

def perLengthBytes (length : Nat) : List UInt8 :=
  if length > 0x7F then beBytes 2 (length ||| 0x8000) else beBytes 1 length

variable {length : Nat} {s s' : WStream} {min : UInt16} {numStr : List UInt8}

theorem perWriteLength_ok {length : UInt16} (res : perWriteLength length s = .ok s') :
    Wrote s s' (perLengthBytes length.toNat) := by
  unfold perWriteLength at res
  unfold perLengthBytes
  split at res
  · rename_i long
    obtain ⟨s₁, room, written⟩ := bind_eq_ok.mp res
    rw [if_pos long]
    exact (ensureRemaining_ok room).1.trans (streamWriteBE_ok written).2
  rename_i short
  obtain ⟨s₁, room, written⟩ := bind_eq_ok.mp res
  rw [if_neg short]
  exact (ensureRemaining_ok room).1.trans (streamWriteBE_ok written).2

theorem marker_tests {byte : Nat} (lt : byte < 256) :
    (byte &&& 0x80 ≠ 0 ↔ 128 ≤ byte) ∧ byte &&& 0x7F = byte % 128 := by
  revert byte
  decide +kernel

theorem or_marker (lt : length < 2 ^ 16) : length ||| 0x8000 = 2 ^ 15 + length % 2 ^ 15 := by
  have high := two_pow_add_eq_or_of_lt (mod_lt length (Nat.two_pow_pos 15)) 1
  rw [mul_one] at high
  by_cases top : length < 2 ^ 15
  · rw [mod_eq_of_lt top] at high ⊢
    rw [high, Nat.or_comm]
  have split : length = 2 ^ 15 ||| length % 2 ^ 15 := by omega
  have marker : (0x8000 : Nat) = 2 ^ 15 := rfl
  calc length ||| 0x8000 = (2 ^ 15 ||| length % 2 ^ 15) ||| 2 ^ 15 := by rw [← split, marker]
    _ = 2 ^ 15 ||| length % 2 ^ 15 := by rw [Nat.or_comm, ← Nat.or_assoc, Nat.or_self]
    _ = 2 ^ 15 + length % 2 ^ 15 := high.symm

theorem perReadLength_two (lt : length < 2 ^ 16) (rest : List UInt8) :
    perReadLength (beBytes 2 (length ||| 0x8000) ++ rest) = some (length % 2 ^ 15, rest) := by
  have fst : ((2 ^ 15 + length % 2 ^ 15) / 2 ^ 8) % 256 = 128 + length % 2 ^ 15 / 2 ^ 8 := by omega
  have second : (2 ^ 15 + length % 2 ^ 15) % 256 = length % 256 := by omega
  obtain ⟨mark, low⟩ := @marker_tests (128 + length % 2 ^ 15 / 2 ^ 8) (by omega)
  rw [perReadLength, or_marker lt, beBytes_two, cons_append, cons_append, streamReadBE_cons]
  dsimp only
  rw [streamReadBE_cons, UInt8.toNat_ofNat', UInt8.toNat_ofNat', fst, second,
    if_pos (mark.mpr (le_add_right _ _)), low]
  simp only [shiftLeft_eq, nil_append]
  congr 2
  omega

theorem perReadLength_perLengthBytes (lt : length < 2 ^ 16) (rest : List UInt8) :
    perReadLength (perLengthBytes length ++ rest) = some (length % 2 ^ 15, rest) := by
  unfold perLengthBytes
  by_cases long : length > 0x7F
  · rw [if_pos long]
    exact perReadLength_two lt rest
  obtain ⟨mark, -⟩ := @marker_tests length (by omega)
  rw [if_neg long, perReadLength, beBytes_one, cons_append, streamReadBE_cons]
  dsimp only
  rw [UInt8.toNat_ofNat', mod_eq_of_lt (by omega), if_neg (mt mark.mp (by omega)),
    mod_eq_of_lt (by omega), nil_append]

theorem perReadLength_iff (length : UInt16) :
    perReadLength (perLengthBytes length.toNat) = some (length.toNat, []) ↔ length.toNat < 2 ^ 15 := by
  have read := perReadLength_perLengthBytes length.toNat_lt []
  rw [append_nil] at read
  rw [read]
  constructor
  · intro same
    have eq := congrArg Prod.fst (Option.some.inj same)
    omega
  intro lt
  rw [mod_eq_of_lt lt]

/-! ## Integers -/

variable {n : Nat} {integer : UInt32} {octStr : List UInt8}

theorem perWriteIntegerBytes_ok (lt : n < 2 ^ 16) (res : perWriteIntegerBytes n integer s = .ok s') :
    Wrote s s' (perLengthBytes n ++ beBytes n integer.toNat) := by
  simp only [perWriteIntegerBytes, bind_eq_ok] at res
  obtain ⟨_, length, _, room, x, cast, written⟩ := res
  have value : x = integer.toNat := by
    unfold assertingCast at cast
    split at cast
    · cases cast
      rfl
    · cases cast
  have fst := perWriteLength_ok length
  rw [UInt16.toNat_ofNat', mod_eq_of_lt lt] at fst
  rw [value] at written
  exact fst.trans ((ensureRemaining_ok room).1.trans (streamWriteBE_ok written).2)

def perIntegerBytes (integer : Nat) : List UInt8 :=
  if integer ≤ 0xFF then perLengthBytes 1 ++ beBytes 1 integer
  else if integer ≤ 0xFFFF then perLengthBytes 2 ++ beBytes 2 integer
  else perLengthBytes 4 ++ beBytes 4 integer

theorem perWriteInteger_ok (res : perWriteInteger integer s = .ok s') :
    Wrote s s' (perIntegerBytes integer.toNat) := by
  unfold perWriteInteger at res
  unfold perIntegerBytes
  split at res
  · rename_i one
    rw [if_pos one]
    exact perWriteIntegerBytes_ok (by decide) res
  rename_i notOne
  rw [if_neg notOne]
  split at res
  · rename_i two
    rw [if_pos two]
    exact perWriteIntegerBytes_ok (by decide) res
  rename_i notTwo
  rw [if_neg notTwo]
  exact perWriteIntegerBytes_ok (by decide) res

theorem perReadInteger_short {integer : Nat} (few : n = 1 ∨ n = 2) (lt : integer < 2 ^ (8 * n)) :
    perReadInteger (perLengthBytes n ++ beBytes n integer) = some (integer, []) := by
  have value := streamReadBE_beBytes n integer []
  rw [append_nil, mod_eq_of_lt lt] at value
  rw [perReadInteger, perReadLength_perLengthBytes (by omega)]
  cases few with
  | inl one =>
    subst one
    exact value
  | inr two =>
    subst two
    exact value

theorem perReadInteger_four (integer : Nat) :
    perReadInteger (perLengthBytes 4 ++ beBytes 4 integer) = none := by
  rw [perReadInteger, perReadLength_perLengthBytes (by decide)]
  rfl

theorem perReadInteger_iff (integer : UInt32) :
    perReadInteger (perIntegerBytes integer.toNat) = some (integer.toNat, []) ↔
    integer.toNat < 2 ^ 16 := by
  unfold perIntegerBytes
  split
  · exact iff_of_true (perReadInteger_short (Or.inl rfl) (by omega)) (by omega)
  split
  · exact iff_of_true (perReadInteger_short (Or.inr rfl) (by omega)) (by omega)
  rw [perReadInteger_four]
  exact iff_of_false (by simp) (by omega)

theorem perWriteInteger16_ok {integer : UInt16} (res : perWriteInteger16 integer min s = .ok s') :
    min.toNat ≤ integer.toNat ∧ Wrote s s' (beBytes 2 (integer.toNat - min.toNat)) := by
  unfold perWriteInteger16 at res
  split at res
  · cases res
  rename_i ge
  obtain ⟨_, room, written⟩ := bind_eq_ok.mp res
  exact ⟨UInt16.le_iff_toNat_le.mp (UInt16.not_lt.mp ge),
    (ensureRemaining_ok room).1.trans (streamWriteBE_ok written).2⟩

theorem perReadInteger16_beBytes {integer : UInt16} (ge : min.toNat ≤ integer.toNat)
    (rest : List UInt8) :
    perReadInteger16 min (beBytes 2 (integer.toNat - min.toNat) ++ rest) =
    some (integer.toNat, rest) := by
  have lt := integer.toNat_lt
  rw [perReadInteger16, streamReadBE_beBytes]
  dsimp only
  rw [mod_eq_of_lt (by omega), if_neg (by omega), Nat.sub_add_cancel ge]

/-! ## Strings -/

theorem writeBytes_ok {bytes : List UInt8} (res : writeBytes bytes s = .ok s') : Wrote s s' bytes := by
  induction bytes generalizing s with
  | nil =>
    cases res
    exact .refl _
  | cons _ bytes ih =>
    obtain ⟨_, written, rest⟩ := bind_eq_ok.mp res
    have fst := (streamWriteBE_ok written).2
    rw [beBytes_one, UInt8.ofNat_toNat] at fst
    exact fst.trans (ih rest)

theorem perStringLength_toNat (lt : length < 2 ^ 16) (min : UInt16) :
    (perStringLength (UInt16.ofNat length) min).toNat =
      if min.toNat ≤ length then length - min.toNat else min.toNat := by
  have value : (UInt16.ofNat length).toNat = length := by
    rw [UInt16.toNat_ofNat', mod_eq_of_lt lt]
  have ge : UInt16.ofNat length ≥ min ↔ min.toNat ≤ length := by
    rw [ge_iff_le, UInt16.le_iff_toNat_le, value]
  unfold perStringLength
  by_cases room : min.toNat ≤ length
  · rw [if_pos (ge.mpr room), if_pos room, UInt16.toNat_sub_of_le _ _ (ge.mpr room), value]
  · rw [if_neg (mt ge.mp room), if_neg room]

theorem writeOctetString_ok (res : perWriteOctetString octStr min s = .ok s') :
    Wrote s s' (perLengthBytes (perStringLength (UInt16.ofNat octStr.length) min).toNat ++ octStr) := by
  obtain ⟨_, length, rest⟩ := bind_eq_ok.mp res
  obtain ⟨_, room, written⟩ := bind_eq_ok.mp rest
  exact (perWriteLength_ok length).trans ((ensureRemaining_ok room).1.trans (writeBytes_ok written))

theorem readOctetString_iff (lt : octStr.length < 2 ^ 16) (min : UInt16) : perReadOctetString octStr min
        (perLengthBytes (perStringLength (UInt16.ofNat octStr.length) min).toNat ++ octStr) = some [] ↔
      min.toNat ≤ octStr.length ∧ octStr.length - min.toNat < 2 ^ 15 := by
  rw [perReadOctetString, perReadLength_perLengthBytes (UInt16.toNat_lt _), perStringLength_toNat lt]
  dsimp only
  by_cases fits : min.toNat ≤ octStr.length ∧ octStr.length - min.toNat < 2 ^ 15
  · rw [if_pos fits.1, if_neg (by omega), if_neg (lt_irrefl _), take_length, if_pos rfl, drop_length]
    exact iff_of_true rfl fits
  refine iff_of_false ?_ fits
  rw [if_pos]
  · simp
  · split <;> omega

def numericBytes : List UInt8 → List UInt8
  | [] => []
  | [c1] => [UInt8.ofNat ((((c1 - 0x30) % 10).toNat <<< 4) ||| 0)]
  | c1 :: c2 :: numStr =>
    UInt8.ofNat ((((c1 - 0x30) % 10).toNat <<< 4) ||| ((c2 - 0x30) % 10).toNat) :: numericBytes numStr

theorem numericBytes_length (numStr : List UInt8) :
    (numericBytes numStr).length = (numStr.length + 1) / 2 := by
  fun_induction numericBytes numStr with
  | case1 => rfl
  | case2 => rw [length_singleton, length_singleton]
  | case3 c1 c2 numStr ih =>
    rw [length_cons, ih, length_cons, length_cons]
    omega

theorem writeDigits_ok {c1 c2 : UInt8} (res : writeDigits c1 c2 s = .ok s') :
    Wrote s s' [UInt8.ofNat ((((c1 - 0x30) % 10).toNat <<< 4) ||| ((c2 - 0x30) % 10).toNat)] := by
  unfold writeDigits at res
  split at res
  · cases res
  obtain ⟨_, cast, written⟩ := bind_eq_ok.mp res
  have fst := (streamWriteBE_ok written).2
  unfold assertingCast at cast
  split at cast
  · cases cast
    exact fst
  · cases cast

theorem numericBytes_drop {i : Nat} (more : i < numStr.length) :
    let c2 := if i + 1 < numStr.length then numStr.getD (i + 1) 0 else 0x30
    numericBytes (numStr.drop i) =
      UInt8.ofNat ((((numStr.getD i 0 - 0x30) % 10).toNat <<< 4) ||| ((c2 - 0x30) % 10).toNat) ::
        numericBytes (numStr.drop (i + 2)) := by
  rw [drop_eq_getElem_cons more, getD_eq_getElem _ _ more]
  by_cases pair : i + 1 < numStr.length
  · simp only [if_pos pair]
    rw [drop_eq_getElem_cons pair, getD_eq_getElem _ _ pair, numericBytes]
  · simp only [if_neg pair]
    rw [drop_of_length_le (not_lt.mp pair), drop_of_length_le (by omega)]
    rfl

/-- With 65535 digits the counter goes from 65534 to 0, so that the loop does not come to an end. -/
theorem writeNumericLoop_wraps (most : numStr.length = 65535) {fuel : Nat} {i : UInt16}
    (even : i.toNat % 2 = 0) (s s' : WStream) : writeNumericLoop numStr fuel i s ≠ .ok s' := by
  have bound := i.toNat_lt
  induction fuel generalizing i s with
  | zero =>
    intro result
    cases result
  | succ fuel ih =>
    intro result
    rw [writeNumericLoop, if_pos (by omega)] at result
    obtain ⟨next, -, rest⟩ := bind_eq_ok.mp result
    exact ih (by rw [UInt16.toNat_add]; simp; omega) next (UInt16.toNat_lt _) rest

theorem writeNumericLoop_ok (length : numStr.length < 65535) {fuel : Nat} {i : UInt16}
    (res : writeNumericLoop numStr fuel i s = .ok s') :
    Wrote s s' (numericBytes (numStr.drop i.toNat)) := by
  induction fuel generalizing i s with
  | zero => cases res
  | succ fuel ih =>
    rw [writeNumericLoop] at res
    split at res
    · next more =>
      obtain ⟨next, first, rest⟩ := bind_eq_ok.mp res
      have advanced : (i + 2).toNat = i.toNat + 2 := by
        rw [UInt16.toNat_add]
        exact mod_eq_of_lt (by simp; omega)
      rw [numericBytes_drop more, ← advanced]
      exact (writeDigits_ok first).trans (ih rest)
    · next last =>
      cases res
      rw [drop_of_length_le (not_lt.mp last)]
      exact .refl _

theorem writeNumericString_ok (length : numStr.length < 2 ^ 16)
    (res : writeNumericString numStr s = .ok s') :
    Wrote s s' (numericBytes numStr) := by
  by_cases most : numStr.length = 65535
  · exact absurd res (writeNumericLoop_wraps most rfl s s')
  · exact writeNumericLoop_ok (by omega) res

theorem perWriteNumericString_ok (lt : numStr.length < 2 ^ 16)
    (res : perWriteNumericString numStr min s = .ok s') :
    Wrote s s'
    (perLengthBytes (perStringLength (UInt16.ofNat numStr.length) min).toNat ++ numericBytes numStr) := by
  obtain ⟨_, length, rest⟩ := bind_eq_ok.mp res
  obtain ⟨_, room, written⟩ := bind_eq_ok.mp rest
  exact (perWriteLength_ok length).trans
    ((ensureRemaining_ok room).1.trans (writeNumericString_ok lt written))

/-- A numeric string is skipped exactly under the same conditions, and in one case by accident: a
minimum of `2 ^ 15` loses its top bit and half of it is the size of `2 ^ 15 - 1` digits. -/
theorem readNumericString_iff (lt : numStr.length < 2 ^ 16) (min : UInt16) : perReadNumericString min
        (perLengthBytes (perStringLength (UInt16.ofNat numStr.length) min).toNat ++
          numericBytes numStr) = some [] ↔
      min.toNat ≤ numStr.length ∧ numStr.length - min.toNat < 2 ^ 15 ∨
      min.toNat = 2 ^ 15 ∧ numStr.length + 1 = 2 ^ 15 := by
  rw [perReadNumericString, perReadLength_perLengthBytes (UInt16.toNat_lt _), perStringLength_toNat lt]
  dsimp only
  have length := numericBytes_length numStr
  by_cases ge : min.toNat ≤ numStr.length
  · rw [if_pos ge]
    by_cases short : numStr.length - min.toNat < 2 ^ 15
    · rw [mod_eq_of_lt short, Nat.sub_add_cancel ge, ← length, if_neg (lt_irrefl _), drop_length]
      exact iff_of_true rfl (Or.inl ⟨ge, short⟩)
    -- the marker bit is lost and half of the digits stay unread
    refine iff_of_false ?_ (by omega)
    split
    · simp
    intro same
    have rest := congrArg List.length (Option.some.inj same)
    rw [length_drop, length_nil] at rest
    omega
  -- the minimum is written in the place of the difference
  have bound := min.toNat_lt
  rw [if_neg ge]
  by_cases odd : min.toNat = 2 ^ 15 ∧ numStr.length + 1 = 2 ^ 15
  · rw [if_neg (by omega), drop_of_length_le (by omega)]
    exact iff_of_true rfl (Or.inr odd)
  rw [if_pos (by omega)]
  exact iff_of_false (by simp) (by omega)

/-- The reader gets the value back from exactly the bytes written exactly in the range given here. -/
theorem per_readers_follow_writers (s s' : WStream) :
    (∀ (length : UInt16), perWriteLength length s = .ok s' → ∃ bytes, Wrote s s' bytes ∧
      (perReadLength bytes = some (length.toNat, []) ↔ length.toNat < 2 ^ 15)) ∧
    (∀ (integer : UInt32), perWriteInteger integer s = .ok s' → ∃ bytes, Wrote s s' bytes ∧
      (perReadInteger bytes = some (integer.toNat, []) ↔ integer.toNat < 2 ^ 16)) ∧
    (∀ (integer min : UInt16), perWriteInteger16 integer min s = .ok s' →
      ∃ bytes, Wrote s s' bytes ∧ perReadInteger16 min bytes = some (integer.toNat, [])) ∧
    (∀ (octStr : List UInt8) (min : UInt16), octStr.length < 2 ^ 16 →
      perWriteOctetString octStr min s = .ok s' → ∃ bytes, Wrote s s' bytes ∧
      (perReadOctetString octStr min bytes = some [] ↔
        min.toNat ≤ octStr.length ∧ octStr.length - min.toNat < 2 ^ 15)) ∧
    (∀ (numStr : List UInt8) (min : UInt16), numStr.length < 2 ^ 16 →
      perWriteNumericString numStr min s = .ok s' → ∃ bytes, Wrote s s' bytes ∧
      (perReadNumericString min bytes = some [] ↔ min.toNat ≤ numStr.length ∧
        numStr.length - min.toNat < 2 ^ 15 ∨ min.toNat = 2 ^ 15 ∧ numStr.length + 1 = 2 ^ 15)) := by
  refine ⟨?_, ?_, ?_, ?_, ?_⟩
  · intro length res
    exact ⟨_, perWriteLength_ok res, perReadLength_iff length⟩
  · intro integer res
    exact ⟨_, perWriteInteger_ok res, perReadInteger_iff integer⟩
  · intro integer min res
    obtain ⟨ge, wrote⟩ := perWriteInteger16_ok res
    have read := perReadInteger16_beBytes ge []
    exact ⟨_, wrote, read⟩
  · intro octStr min lt res
    exact ⟨_, writeOctetString_ok res, readOctetString_iff lt min⟩
  · intro numStr min lt res
    exact ⟨_, perWriteNumericString_ok lt res, readNumericString_iff lt min⟩

def emptyStream : WStream := ⟨[], 16, zero_le 16⟩

/-- Three digits are written, and the reader takes all of their bytes. -/
theorem per_readers_follow_writers_digits : ∃ s',
    perWriteNumericString [0x31, 0x32, 0x33] 1 emptyStream = .ok s' ∧
      ∃ bytes, Wrote emptyStream s' bytes ∧ perReadNumericString 1 bytes = some [] := by
  refine ⟨_, rfl, ?_⟩
  obtain ⟨bytes, wrote, read⟩ :=
    (per_readers_follow_writers emptyStream _).2.2.2.2 [0x31, 0x32, 0x33] 1 (by decide) rfl
  exact ⟨bytes, wrote, read.mpr (Or.inl ⟨by decide, by decide⟩)⟩

/-- Accepted, and not understood: a length with its top bit set, an integer of more than two bytes, and
a string shorter than its minimum. -/
theorem per_accepts_what_is_not_read :
    (∃ s', perWriteLength 0x8000 emptyStream = .ok s' ∧ perReadLength s'.written = some (0, [])) ∧
      (∃ s', perWriteInteger 0x10000 emptyStream = .ok s' ∧ perReadInteger s'.written = none) ∧
      ∃ s', perWriteOctetString [] 1 emptyStream = .ok s' ∧ perReadOctetString [] 1 s'.written = none :=
  ⟨⟨_, rfl, by decide⟩, ⟨_, rfl, by decide⟩, ⟨_, rfl, by decide⟩⟩

end KvmServer.Crypto
