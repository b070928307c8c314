import KvmServer.Winpr.Asn1RoundTrip

/-! # DER lengths and UTC times

A decoder in DER mode does not ask for the shortest length, and the reader of a time takes a zero
field for an error. -/

namespace KvmServer.Winpr
open Lib List

/-! ## Lengths in DER -/

def lengthValue : List UInt8 → Nat
  | [] => 0
  | first :: bytes => if first &&& 0x80 ≠ 0 then beValue bytes else first.toNat

def LengthExact (len : Nat) (bytes : List UInt8) : Prop :=
    len = lengthValue bytes ∧ asn1WriteLen len = .ok bytes

/-- One byte, or one to four bytes behind their count of which the first is not zero. -/
def LengthMinimal : List UInt8 → Prop
  | [] => False
  | first :: bytes =>
      first.toNat < 0x80 ∨ (0x80 < first.toNat ∧ first.toNat ≤ 0x84 ∧ bytes.head? ≠ some 0)

variable {len : Nat} {bytes : List UInt8} (byte : UInt8)

theorem beValue_bounds (bytes : List UInt8) :
    beValue (byte :: bytes) < 256 ^ (bytes.length + 1) ∧
    (byte ≠ 0 ↔ 256 ^ bytes.length ≤ beValue (byte :: bytes)) := by
  have power (k : Nat) : 256 ^ k = 2 ^ (8 * k) := by
    rw [Nat.pow_mul]
  have all := leValue_lt (byte :: bytes).reverse
  have later := leValue_lt bytes.reverse
  rw [length_reverse] at all later
  refine ⟨by rw [power]; exact all, ?_⟩
  change beValue bytes < _ at later
  rw [beValue_cons, power, Ne, ← UInt8.toNat_inj]
  cases nat : byte.toNat with
  | zero => simp [later]
  | succ n => simp [Nat.succ_mul, Nat.add_assoc, Nat.add_comm]

theorem shortestLength_beValue (nz : byte ≠ 0) (long : 128 ≤ beValue (byte :: bytes)) :
    shortestLength (beValue (byte :: bytes)) = .ofNat (0x80 + (bytes.length + 1)) :: byte :: bytes := by
  obtain ⟨high, low⟩ := beValue_bounds byte bytes
  rw [shortestLength, if_neg (by omega), log256_eq (low.mp nz) high]
  exact congrArg _ (beBytes_beValue (byte :: bytes))

theorem lengthMinimal_of_written {fst : UInt8} (long : fst &&& 0x80 ≠ 0)
    (written : asn1WriteLen len = .ok (fst :: bytes)) : LengthMinimal (fst :: bytes) := by
  have fits : len < 2 ^ 32 := by
    by_contra big
    rw [asn1WriteLen, if_neg (by omega), if_neg (by omega), if_neg (by omega),
      if_neg (by omega), winprAssert, if_neg (by omega)] at written
    cases written
  rw [asn1WriteLen_eq fits, shortestLength] at written
  split at written
  case isTrue lt =>
    simp at written
    exact absurd long (written.1 ▸ short_byte lt)
  case isFalse big =>
    obtain ⟨rfl, rfl⟩ := cons.inj (Except.ok.inj written)
    have log := @log256_lt len 3 (by omega)
    have size : len < 256 ^ (Nat.log 256 len + 1) := Nat.lt_pow_succ_log_self (by decide) len
    have value := beValue_beBytes (Nat.log 256 len + 1) len
    have length := beBytes_length (Nat.log 256 len + 1) len
    rw [Nat.pow_mul, Nat.mod_eq_of_lt size] at value
    have count := @UInt8.toNat_ofNat' (0x80 + (Nat.log 256 len + 1))
    refine .inr ⟨by omega, by omega, fun zero => ?_⟩
    cases head : beBytes (Nat.log 256 len + 1) len with
    | nil => simp [head] at zero
    | cons byte bytes =>
      -- a length whose first byte is zero would have a smaller logarithm
      simp only [head, head?_cons, Option.some.injEq, length_cons,
        Nat.add_right_cancel_iff] at zero length value
      apply (beValue_bounds byte bytes).2.mpr _ zero
      rw [value, length]
      exact Nat.pow_log_le_self 256 (by omega)

theorem foldl_lengthBytes (short : bytes.length < 4) : beValue (byte :: bytes) < 2 ^ 32 ∧
      (byte :: bytes).foldl (fun retLen tmp => (retLen * 2 ^ 8 + tmp.toNat) % 2 ^ 64) 0 = beValue
      (byte :: bytes) := by
  have size := (beValue_bounds byte bytes).1
  have lt : 256 ^ (bytes.length + 1) ≤ 256 ^ 4 := Nat.pow_le_pow_right (by decide) short
  have value := foldl_beBytes (bytes.length + 1) size (by omega)
  have same := beBytes_beValue (byte :: bytes)
  rw [length_cons] at same
  rw [same] at value
  exact ⟨by omega, value⟩

/-- A length is exact when its encoding is minimal. -/
theorem readLen_der_iff {s rest : List UInt8} {lenBytes : Nat}
    (acc : readLen true s = some (len, lenBytes, rest)) :
    LengthExact len (s.take lenBytes) ↔ LengthMinimal s := by
  cases s with
  | nil => simp [readLen] at acc
  | cons first s =>
    have mark := highBit_ne_zero_iff first
    rw [readLen] at acc
    split at acc
    case isFalse short =>
      have lt : first.toNat < 128 := Nat.lt_of_not_le fun high => short (mark.mpr high)
      cases acc
      simp [LengthExact, lengthValue, LengthMinimal, asn1WriteLen, short, lt]
    case isTrue long =>
      have high := mark.mp long
      have count := lowBits_toNat first
      simp only at acc
      split at acc
      · cases acc
      case isFalse room =>
      split at acc
      · cases acc
      case isFalse big =>
      cases acc
      rw [Nat.add_comm, take_succ_cons]
      constructor
      · intro written
        obtain lt | ⟨hi, lo, nz⟩ := lengthMinimal_of_written long written.2
        · omega
        refine .inr ⟨hi, lo, ?_⟩
        rwa [head?_take, if_neg (by omega)] at nz
      rintro (lt | ⟨hi, lo, nz⟩)
      · omega
      cases s with
      | nil =>
        rw [length_nil] at room
        omega
      | cons head s =>
        obtain ⟨k, cnt⟩ : ∃ k, (first &&& 0x7f).toNat = k + 1 := Nat.exists_eq_succ_of_ne_zero (by omega)
        rw [cnt] at room big ⊢
        have length : (s.take k).length = k := by
          rw [length_take, min_eq_left (Nat.le_of_succ_le_succ (Nat.le_of_not_lt room))]
        obtain ⟨lt, value⟩ := @foldl_lengthBytes (s.take k) head (by omega)
        rw [take_succ_cons, value] at big ⊢
        have written := @shortestLength_beValue (s.take k) head (by simpa using nz)
          (Nat.le_of_not_lt fun less => big ⟨trivial, by omega, less⟩)
        have marker : UInt8.ofNat (0x80 + (k + 1)) = first :=
          UInt8.toNat_inj.mp (by rw [UInt8.toNat_ofNat']; omega)
        rw [length, marker] at written
        exact ⟨by simp [lengthValue, long], by rw [asn1WriteLen_eq lt, written]⟩

/-- In DER the length is exact and canonical exactly when its bytes are minimal. -/
theorem readTagAndLen_der_iff {source : List UInt8} {tag : UInt8} {returned : Nat} {dec : Asn1Decoder}
    (accepted : readTagAndLen ⟨.der, source⟩ = some (tag, len, returned, dec)) :
    LengthExact len (source.take returned).tail ↔ LengthMinimal source.tail := by
  cases source with
  | nil => simp [readTagAndLen] at accepted
  | cons tag s =>
    simp only [readTagAndLen, decide_true] at accepted
    split at accepted
    · cases accepted
    case h_2 read =>
      cases accepted
      rw [Nat.add_comm, take_succ_cons]
      exact readLen_der_iff read

/-- A length of 128 in two bytes is minimal. -/
theorem readTagAndLen_der_iff_short :
    readTagAndLen ⟨.der, [0x04, 0x81, 0x80]⟩ = some (0x04, 128, 3, ⟨.der, []⟩) ∧
      (LengthExact 128 [0x81, 0x80] ↔ LengthMinimal [0x81, 0x80]) :=
  have acc : readTagAndLen ⟨.der, [0x04, 0x81, 0x80]⟩ = some (0x04, 128, 3, ⟨.der, []⟩) := rfl
  ⟨acc, readTagAndLen_der_iff acc⟩

/-- The length 128 with a zero in front of it. -/
theorem readTagAndLen_der_padded :
    readTagAndLen ⟨.der, [0x04, 0x82, 0x00, 0x80]⟩ = some (0x04, 128, 4, ⟨.der, []⟩) ∧
      ¬LengthExact 128 [0x82, 0x00, 0x80] := by
  refine ⟨rfl, fun exact => ?_⟩
  have written := exact.2
  simp [asn1WriteLen] at written

/-! ## UTC times -/

def write2digit (v : UInt8) : List UInt8 := [48 + v / 10, 48 + v % 10]

def utcContent (utc : Asn1UtcTime) (tz : UInt8) : List UInt8 :=
  write2digit (.ofNat (utc.year - 2000)) ++ (write2digit utc.month ++ (write2digit utc.day ++
    (write2digit utc.hour ++ (write2digit utc.minute ++ (write2digit utc.second ++ [tz])))))

/-- The zone of `utc`, which only a reader leaves open, is `tz`. -/
def winPrAsn1EncUtcTime (enc : Asn1Encoder) (utc : Asn1UtcTime) (tz : UInt8) :
    Except Stop (Asn1Encoder × Nat) := do
  winprAssert (utc.year ≥ 2000)
  asn1WriteElement enc 15 (.ok (ER_TAG_UTCTIME :: 13 :: utcContent utc tz))

structure Asn1UtcTime.Valid (utc : Asn1UtcTime) : Prop where
  year : 2000 ≤ utc.year ∧ utc.year ≤ 2099
  month : 1 ≤ utc.month ∧ utc.month ≤ 12
  day : 1 ≤ utc.day ∧ utc.day ≤ 31
  hour : utc.hour ≤ 23
  minute : utc.minute ≤ 59
  second : utc.second ≤ 59

def UtcRoundTrip (rule : Asn1EncodingRule) (utc : Asn1UtcTime) (tz : UInt8) : Prop :=
  ∃ enc bytes, winPrAsn1EncUtcTime asn1EncoderNew utc tz = .ok (enc, 15) ∧
    winPrAsn1EncToStream enc [] = some bytes ∧
    winPrAsn1DecReadUtcTime ⟨rule, bytes⟩ = some (15, { utc with tz := some tz }, ⟨rule, []⟩)

theorem digits_of_small : ∀ v :
    UInt8, v < 100 → ¬(48 + v / 10 < 48 ∨ 48 + v / 10 > 57) ∧ ¬(48 + v % 10 < 48 ∨ 48 + v % 10 > 57) ∧
      ((48 + v / 10).toNat - 48) * 10 + ((48 + v % 10).toNat - 48) = v.toNat := by
  apply forall_byte
  decide +kernel

theorem readTimeField_write2digit {α : Type} {v bound : UInt8} (lo : v ≤ bound) (lt : bound < 100)
    (s : List UInt8) (next : UInt8 × List UInt8 → Option α) :
    (readTimeField (write2digit v ++ s) >>= next) = if v = 0 then none else next (v, s) := by
  obtain ⟨tens, units, value⟩ := digits_of_small v (UInt8.lt_of_le_of_lt lo lt)
  simp only [readTimeField, write2digit, cons_append, nil_append, read2digits,
    if_neg tens, if_neg units, value, UInt8.ofNat_toNat, ← UInt8.toNat_inj, UInt8.toNat_zero]
  split <;> rfl

variable {utc : Asn1UtcTime}

theorem utcRoundTrip_iff_read (rule : Asn1EncodingRule) (year : utc.year ≥ 2000) (tz : UInt8) :
    UtcRoundTrip rule utc tz ↔ winPrAsn1DecReadUtcTime ⟨rule, tlv ER_TAG_UTCTIME (utcContent utc tz)⟩ =
      some (15, { utc with tz := some tz }, ⟨rule, []⟩) := by
  obtain ⟨enc, written, closed, h⟩ := asn1WriteElement_call
    (@Asn1Encoder.holds_fresh asn1EncoderNew ⟨rfl, rfl⟩)
      (cons_ne_nil ER_TAG_UTCTIME (13 :: utcContent utc tz))
  have stream := (Asn1Encoder.Holds.written h closed).2 []
  have call : winPrAsn1EncUtcTime asn1EncoderNew utc tz = .ok (enc, 15) := by
    rw [winPrAsn1EncUtcTime, winprAssert, if_pos year]
    exact written
  constructor
  · rintro ⟨_, _, call', stream', read⟩
    cases call.symm.trans call'
    cases stream.symm.trans stream'
    exact read
  · exact fun read => ⟨enc, _, call, stream, read⟩

theorem readUtcFields_utcContent (ok : utc.Valid) (tz : UInt8) : readUtcFields (utcContent utc tz) =
      if utc.year ≠ 2000 ∧ utc.hour ≠ 0 ∧ utc.minute ≠ 0 ∧
      utc.second ≠ 0 then some { utc with tz := some tz } else none := by
  obtain ⟨year, month, day, hour, minute, second⟩ := ok
  have nat : (UInt8.ofNat (utc.year - 2000)).toNat = utc.year - 2000 := by
    rw [UInt8.toNat_ofNat']
    omega
  have century : UInt8.ofNat (utc.year - 2000) ≤ 99 := by
    rw [UInt8.le_iff_toNat_le, nat]
    exact Nat.sub_le_sub_right year.2 2000
  have fst : UInt8.ofNat (utc.year - 2000) = 0 ↔ utc.year = 2000 := by
    rw [← UInt8.toNat_inj, nat, UInt8.toNat_zero]
    omega
  have present {v : UInt8} (one : 1 ≤ v) : v ≠ 0 := fun zero => absurd (zero ▸ one) (by decide)
  simp only [readUtcFields, utcContent, readTimeField_write2digit century (by decide),
    readTimeField_write2digit month.2 (by decide), readTimeField_write2digit day.2 (by decide),
    readTimeField_write2digit hour (by decide), readTimeField_write2digit minute (by decide),
    readTimeField_write2digit second (by decide), if_neg (present month.1),
    if_neg (present day.1), fst, nat, Nat.add_sub_cancel' year.1]
  by_cases leap : utc.year = 2000 <;> by_cases midnight : utc.hour = 0 <;>
    by_cases full : utc.minute = 0 <;>
    by_cases sharp : utc.second = 0 <;> simp [leap, midnight, full, sharp]

/-- The reader takes a zero in a field for an error: it refuses the first year, hour, minute and
second. -/
theorem utcTime_round_trip_iff (rule : Asn1EncodingRule) (valid : utc.Valid) (tz : UInt8) :
    UtcRoundTrip rule utc tz ↔ utc.year ≠ 2000 ∧ utc.hour ≠ 0 ∧ utc.minute ≠ 0 ∧ utc.second ≠ 0 := by
  have read :=
    @readValue_tlv rule ER_TAG_UTCTIME (utcContent utc tz) (by simp [utcContent, write2digit]) []
  rw [append_nil] at read
  rw [utcRoundTrip_iff_read rule valid.year.1, winPrAsn1DecReadUtcTime, read]
  simp only [readUtcFields_utcContent valid]
  rw [if_neg (by simp [utcContent, write2digit])]
  by_cases pos : utc.year ≠ 2000 ∧ utc.hour ≠ 0 ∧ utc.minute ≠ 0 ∧ utc.second ≠ 0
  · simp [pos, utcContent, write2digit, shortestLength]
  · simp [pos]

/-- An afternoon in 2021 is written and read back. -/
theorem utcTime_round_trip_iff_afternoon : Asn1UtcTime.Valid ⟨2021, 3, 17, 16, 40, 16, none⟩ ∧
      (UtcRoundTrip .der ⟨2021, 3, 17, 16, 40, 16, none⟩ 0x5A ↔
        2021 ≠ 2000 ∧ (16 : UInt8) ≠ 0 ∧ (40 : UInt8) ≠ 0 ∧ (16 : UInt8) ≠ 0) :=
  have ok : Asn1UtcTime.Valid ⟨2021, 3, 17, 16, 40, 16, none⟩ := by constructor <;> decide
  ⟨ok, utcTime_round_trip_iff .der ok 0x5A⟩

/-- A time in the first hour of a day is not read back. -/
theorem utcTime_midnight_refused : ¬UtcRoundTrip .der ⟨2021, 3, 17, 0, 40, 16, none⟩ 0x5A := by
  rw [utcRoundTrip_iff_read .der (by decide)]
  intro read
  cases read

end KvmServer.Winpr
