import KvmServer.Winpr.Asn1Decoder

/-! # What the ASN.1 readers return

A reader returns the number of bytes by which it has moved the decoder.  The readers for one
contextual element only move when all went well; `WinPrAsn1DecReadContextualTag` moves at once. -/

namespace KvmServer.Winpr
open List

/-- The functions `WinPrAsn1DecRead*`. -/
inductive Asn1Read where
  | tagAndLen
  | tagLenValue
  | boolean
  | integer
  | enumerated
  | oid
  | octetString
  | ia5String
  | generalString
  | utcTime
  | null
  | app
  | sequence
  | set
  | contextualTag
  | contextualBool (tagId : UInt8)
  | contextualInteger (tagId : UInt8)
  | contextualOID (tagId : UInt8)
  | contextualOctetString (tagId : UInt8)
  | contextualSequence (tagId : UInt8)

def Asn1Read.Contextual : Asn1Read → Prop
  | contextualTag | contextualBool _ | contextualInteger _ | contextualOID _ | contextualOctetString _
  | contextualSequence _ => True
  | _ => False

def lenEnd : List UInt8 → List UInt8
  | [] => []
  | first :: s =>
      if first &&& 0x80 ≠ 0 ∧ (first &&& 0x7f).toNat ≤ s.length then s.drop (first &&& 0x7f).toNat else s

variable (dec : Asn1Decoder)

def headerEnd : Asn1Decoder := { dec with source := lenEnd dec.source.tail }

def constructedEnd : Asn1Decoder :=
  match readConstructed dec with
  | none => headerEnd dec
  | some (_, _, _, dec) => dec

def outcome {α : Type} (failed : Asn1Decoder) : Option (Nat × α × Asn1Decoder) → Nat × Asn1Decoder
  | none => (0, failed)
  | some (ret, _, dec) => (ret, dec)

/-- A call of a reader.  A value that is refused is not skipped, a container of another kind is. -/
def Asn1Read.call : Asn1Read → Nat × Asn1Decoder
  | tagAndLen => outcome (headerEnd dec) (winPrAsn1DecReadTagAndLen dec)
  | tagLenValue => outcome (headerEnd dec) (winPrAsn1DecReadTagLenValue dec)
  | boolean => outcome (headerEnd dec) (winPrAsn1DecReadBoolean dec)
  | integer => outcome (headerEnd dec) (winPrAsn1DecReadInteger dec)
  | enumerated => outcome (headerEnd dec) (winPrAsn1DecReadEnumerated dec)
  | oid => outcome (headerEnd dec) (winPrAsn1DecReadOID dec)
  | octetString => outcome (headerEnd dec) (winPrAsn1DecReadOctetString dec)
  | ia5String => outcome (headerEnd dec) (winPrAsn1DecReadIA5String dec)
  | generalString => outcome (headerEnd dec) (winPrAsn1DecReadGeneralString dec)
  | utcTime => outcome (headerEnd dec) (winPrAsn1DecReadUtcTime dec)
  | null => outcome (headerEnd dec) (winPrAsn1DecReadNull dec)
  | app => outcome (constructedEnd dec) ((winPrAsn1DecReadApp dec).map fun (ret, tagId, content, dec) =>
      (ret, (tagId, content), dec))
  | sequence => outcome (constructedEnd dec) (winPrAsn1DecReadSequence dec)
  | set => outcome (constructedEnd dec) (winPrAsn1DecReadSet dec)
  | contextualTag => outcome (constructedEnd dec) ((winPrAsn1DecReadContextualTag dec).map
      fun (ret, tagId, content, dec) => (ret, (tagId, content), dec))
  | contextualBool tagId => outcome dec (winPrAsn1DecReadContextualBool dec tagId)
  | contextualInteger tagId => outcome dec (winPrAsn1DecReadContextualInteger dec tagId)
  | contextualOID tagId => outcome dec (winPrAsn1DecReadContextualOID dec tagId)
  | contextualOctetString tagId => outcome dec (winPrAsn1DecReadContextualOctetString dec tagId)
  | contextualSequence tagId => outcome dec (winPrAsn1DecReadContextualSequence dec tagId)

/-- What is returned says how far the decoder has moved; a contextual read that returns zero has not
moved it. -/
def Asn1Read.Reports (read : Asn1Read) (dec : Asn1Decoder) : Prop :=
  let (ret, dec') := read.call dec
  (ret ≠ 0 → dec'.source = dec.source.drop ret) ∧ (read.Contextual → ret = 0 → dec' = dec)

def Asn1Read.ReportsWhen : Asn1Read → Prop
  | boolean => ∀ v ret dec', readValue dec ≠ some (ER_TAG_BOOLEAN, [v], ret, dec')
  | contextualTag =>
      dec.source = [] ∨ ∃ ret tag content dec', readConstructed dec = some (ret, tag, content, dec') ∧
      tag &&& ER_TAG_CONTEXTUAL = ER_TAG_CONTEXTUAL
  | _ => True

/-! ## How far the readers move -/

variable {len ret : Nat} {dec' cont : Asn1Decoder} {tag : UInt8}

theorem readLen_rest {derCheck : Bool} {s rest : List UInt8} {lenBytes : Nat}
    (read : readLen derCheck s = some (len, lenBytes, rest)) :
    rest = s.drop lenBytes ∧ 0 < lenBytes ∧ lenBytes ≤ s.length := by
  unfold readLen at read
  split at read
  · cases read
  next _ s =>
    dsimp only at read
    split at read
    · split at read
      · cases read
      split at read
      · cases read
      · cases read
        rw [add_comm 1, drop_succ_cons, length_cons]
        exact ⟨rfl, by omega, by omega⟩
    · cases read
      exact ⟨rfl, by decide, Nat.succ_le_succ (Nat.zero_le _)⟩

theorem readTagAndLen_rest {dec : Asn1Decoder} (read : readTagAndLen dec = some (tag, len, ret, dec')) :
    dec'.source = dec.source.drop ret ∧ 0 < ret ∧ ret ≤ dec.source.length := by
  unfold readTagAndLen at read
  split at read
  · cases read
  next tag s src =>
    split at read
    · cases read
    next len _ _ length =>
      cases read
      obtain ⟨rfl, _, _⟩ := readLen_rest length
      rw [src, add_comm 1, drop_succ_cons, length_cons]
      exact ⟨rfl, by omega, by omega⟩

theorem readValue_rest {dec : Asn1Decoder} {value : List UInt8}
    (read : readValue dec = some (tag, value, ret, dec')) :
    dec'.source = dec.source.drop (ret + value.length) ∧ 0 < ret ∧
    ret + value.length ≤ dec.source.length := by
  unfold readValue at read
  split at read
  · cases read
  next tag len ret mid header =>
    split at read
    · cases read
    next _ _ taken =>
      cases read
      obtain ⟨src, pos, _⟩ := readTagAndLen_rest header
      unfold takeValue at taken
      split at taken
      · cases taken
      next room =>
        cases taken
        have length : (mid.source.take len).length = len := length_take_of_le (not_lt.mp room)
        rw [length]
        rw [src, drop_drop]
        rw [src, length_drop] at room
        exact ⟨rfl, pos, by omega⟩

theorem readConstructed_rest {dec : Asn1Decoder}
    (read : readConstructed dec = some (ret, tag, cont, dec')) :
    dec'.source = dec.source.drop ret ∧ 0 < ret ∧ ret ≤ dec.source.length := by
  unfold readConstructed at read
  split at read
  · cases read
  next _ length _ val' =>
    cases read
    obtain ⟨src, _, inside⟩ := readValue_rest val'
    exact ⟨src, by omega, inside⟩

def Moves {α : Type} (dec : Asn1Decoder) (result : Option (Nat × α × Asn1Decoder)) : Prop :=
  ∀ ret value dec', result = some (ret, value, dec') → dec'.source = dec.source.drop ret ∧ 0 < ret

variable {α : Type} {dec : Asn1Decoder} {result : Option (Nat × α × Asn1Decoder)} (expectedTag : UInt8)

theorem Moves.outcome (moves : Moves dec result) (fail : Asn1Decoder) :
    (outcome fail result).1 ≠ 0 →
    (outcome fail result).2.source = dec.source.drop (outcome fail result).1 := by
  cases result with
  | none => exact fun some => absurd rfl some
  | some _ => exact fun _ => (moves _ _ _ rfl).1

theorem Moves.outcome_zero (moves : Moves dec result) (zero : (Winpr.outcome dec result).1 = 0) :
    (Winpr.outcome dec result).2 = dec := by
  cases result with
  | none => rfl
  | some _ =>
    have pos := (moves _ _ _ rfl).2
    exact absurd zero (ne_of_gt pos)

theorem moves_integerLike : Moves dec (winPrAsn1DecReadIntegerLike dec expectedTag) := by
  intro _ _ _ read
  unfold winPrAsn1DecReadIntegerLike at read
  split at read
  next got =>
    obtain ⟨src, _, -⟩ := readValue_rest got
    split at read
    · cases read
    split at read
    · cases read
    · cases read
      exact ⟨src, by omega⟩
  next => cases read

theorem moves_memoryChunk : Moves dec (winPrAsn1DecReadMemoryChunkLike dec expectedTag) := by
  intro _ _ _ read
  unfold winPrAsn1DecReadMemoryChunkLike at read
  split at read
  · cases read
  next got =>
    obtain ⟨src, _, -⟩ := readValue_rest got
    split at read
    · cases read
      exact ⟨src, by omega⟩
    · cases read

theorem moves_ia5String : Moves dec (winPrAsn1DecReadIA5String dec) := by
  intro _ _ _ read
  unfold winPrAsn1DecReadIA5String at read
  split at read
  · cases read
  next got =>
    cases read
    exact moves_memoryChunk _ _ _ _ got

theorem moves_generalString : Moves dec (winPrAsn1DecReadGeneralString dec) := by
  intro _ _ _ read
  unfold winPrAsn1DecReadGeneralString at read
  split at read
  · cases read
  next got =>
    cases read
    exact moves_memoryChunk _ _ _ _ got

theorem moves_null : Moves dec (winPrAsn1DecReadNull dec) := by
  intro _ _ _ read
  unfold winPrAsn1DecReadNull at read
  split at read
  next got =>
    obtain ⟨src, pos, -⟩ := readTagAndLen_rest got
    split at read
    · cases read
    · cases read
      exact ⟨src, pos⟩
  next => cases read

theorem moves_utcTime : Moves dec (winPrAsn1DecReadUtcTime dec) := by
  intro _ _ _ read
  unfold winPrAsn1DecReadUtcTime at read
  split at read
  · cases read
  next got =>
    obtain ⟨src, _, -⟩ := readValue_rest got
    split at read
    · cases read
    obtain ⟨_, -, same⟩ := Option.map_eq_some_iff.mp read
    cases same
    exact ⟨src, by omega⟩

theorem moves_tagAndLen : Moves dec (winPrAsn1DecReadTagAndLen dec) := by
  intro _ _ _ read
  obtain ⟨⟨_, _, _, _⟩, got, same⟩ := Option.map_eq_some_iff.mp read
  cases same
  obtain ⟨src, pos, -⟩ := readTagAndLen_rest got
  exact ⟨src, pos⟩

theorem moves_tagLenValue : Moves dec (winPrAsn1DecReadTagLenValue dec) := by
  intro _ _ _ read
  obtain ⟨⟨_, _, _, _⟩, got, same⟩ := Option.map_eq_some_iff.mp read
  cases same
  obtain ⟨src, pos, -⟩ := readConstructed_rest got
  exact ⟨src, pos⟩

theorem moves_constructedLike : Moves dec (readConstructedLike dec expectedTag) := by
  intro _ _ _ read
  unfold readConstructedLike at read
  split at read
  · cases read
  next got =>
    obtain ⟨src, pos, -⟩ := readConstructed_rest got
    split at read
    · cases read
    · cases read
      exact ⟨src, pos⟩

theorem moves_app : Moves dec ((winPrAsn1DecReadApp dec).map fun (ret, tagId, cont, dec) =>
    (ret, (tagId, cont), dec)) := by
  intro ret _ _ read
  obtain ⟨⟨_, _, cont, _⟩, got, same⟩ := Option.map_eq_some_iff.mp read
  cases same
  unfold winPrAsn1DecReadApp at got
  split at got
  · cases got
  next constructed =>
    obtain ⟨src, pos, -⟩ := readConstructed_rest constructed
    split at got
    · cases got
    · cases got
      exact ⟨src, pos⟩

theorem contextualTag_rest (read : winPrAsn1DecReadContextualTag dec = some (ret, tag, cont, dec')) :
    dec'.source = dec.source.drop ret ∧ 0 < ret := by
  unfold winPrAsn1DecReadContextualTag at read
  split at read
  · cases read
  next constructed =>
    obtain ⟨src, pos, -⟩ := readConstructed_rest constructed
    split at read
    · cases read
    · cases read
      exact ⟨src, pos⟩

theorem moves_contextual (read : Asn1Decoder → Option (Nat × α × Asn1Decoder)) (tagId : UInt8) :
    Moves dec (readContextual read dec tagId) := by
  intro _ _ _ result
  unfold readContextual at result
  split at result
  · cases result
  next got =>
    iterate 2
      split at result
      · cases result
    · cases result
      exact contextualTag_rest got

/-! ## The two exceptions -/

theorem lenEnd_length (s : List UInt8) : (lenEnd s).length ≤ s.length := by
  cases s with
  | nil => exact le_refl _
  | cons _ s =>
    rw [lenEnd, length_cons]
    split
    · rw [length_drop]
      omega
    · omega

theorem constructedEnd_ne (some : dec.source ≠ []) : constructedEnd dec ≠ dec := by
  intro same
  have length := congrArg (·.source.length) same
  unfold constructedEnd at length
  have pos := length_pos_iff.mpr some
  split at length
  · have lt := lenEnd_length dec.source.tail
    simp only [headerEnd] at length
    rw [length_tail] at lt
    omega
  next got =>
    obtain ⟨src, _, _⟩ := readConstructed_rest got
    simp only [src, length_drop] at length
    omega

theorem boolean_reports_iff : Asn1Read.boolean.Reports dec ↔ Asn1Read.boolean.ReportsWhen dec := by
  have plain : ¬Asn1Read.boolean.Contextual := id
  unfold Asn1Read.Reports Asn1Read.ReportsWhen Asn1Read.call winPrAsn1DecReadBoolean
  simp only [plain, false_imp_iff, and_true]
  split
  next _ v ret dec' got =>
    obtain ⟨src, pos, inside⟩ := readValue_rest got
    split
    next boolean =>
      subst boolean
      -- the byte of the value is read and not counted
      refine iff_of_false ?_ fun none => none _ _ _ got
      intro moved
      have length := congrArg length ((moved (ne_of_gt pos)).symm.trans src)
      simp only [outcome, length_drop, length_singleton] at length inside
      omega
    next other =>
      refine iff_of_true (fun none => absurd rfl none) ?_
      intro _ _ _ again
      rw [got] at again
      cases again
      exact other rfl
  next missing =>
    refine iff_of_true (fun none => absurd rfl none) ?_
    intro v ret dec' got
    exact missing _ _ _ _ got

theorem contextualTag_reports_iff :
    Asn1Read.contextualTag.Reports dec ↔ Asn1Read.contextualTag.ReportsWhen dec := by
  unfold Asn1Read.Reports Asn1Read.ReportsWhen Asn1Read.call winPrAsn1DecReadContextualTag
  cases got : readConstructed dec with
  | none =>
    have stays : constructedEnd dec = dec ↔ dec.source = [] := by
      constructor
      · exact fun same => not_not.mp fun some => constructedEnd_ne some same
      intro empty
      obtain ⟨_, src⟩ := dec
      cases empty
      rfl
    simpa [outcome, Asn1Read.Contextual] using stays
  | some parts =>
    obtain ⟨_, tag, _, _⟩ := parts
    obtain ⟨src, pos, inside⟩ := readConstructed_rest got
    have some : dec.source ≠ [] := by
      intro empty
      rw [empty] at inside
      exact absurd inside (Nat.not_le_of_gt pos)
    have moved := constructedEnd_ne some
    by_cases contextual : tag &&& ER_TAG_CONTEXTUAL = ER_TAG_CONTEXTUAL
    · simp [outcome, contextual, src, ne_of_gt pos]
    · simp [outcome, contextual, moved, some, Asn1Read.Contextual]

/-- For every reader and every input, what is returned is what was consumed exactly if the reader
does not read a Boolean, and the reader of contextual tags finds one. -/
theorem asn1_reports_iff (read : Asn1Read) (dec : Asn1Decoder) :
    read.Reports dec ↔ read.ReportsWhen dec := by
  have plain {β : Type} {result : Option (Nat × β × Asn1Decoder)} (moves : Moves dec result)
    (fail : Asn1Decoder)
      (read : Asn1Read) (call : read.call dec = outcome fail result) (plain : ¬read.Contextual) :
      read.Reports dec := by
    unfold Asn1Read.Reports
    rw [call]
    exact ⟨moves.outcome fail, fun contextual => absurd contextual plain⟩
  have ahead {β : Type} {result : Option (Nat × β × Asn1Decoder)} (moves : Moves dec result)
    (read : Asn1Read)
      (call : read.call dec = outcome dec result) : read.Reports dec := by
    unfold Asn1Read.Reports
    rw [call]
    exact ⟨moves.outcome dec, fun _ zero => moves.outcome_zero zero⟩
  cases read with
  | boolean => exact boolean_reports_iff
  | contextualTag => exact contextualTag_reports_iff
  | tagAndLen => exact iff_of_true (plain moves_tagAndLen _ _ rfl id) trivial
  | tagLenValue => exact iff_of_true (plain moves_tagLenValue _ _ rfl id) trivial
  | integer | enumerated => exact iff_of_true (plain (moves_integerLike _) _ _ rfl id) trivial
  | oid | octetString => exact iff_of_true (plain (moves_memoryChunk _) _ _ rfl id) trivial
  | ia5String => exact iff_of_true (plain moves_ia5String _ _ rfl id) trivial
  | generalString => exact iff_of_true (plain moves_generalString _ _ rfl id) trivial
  | utcTime => exact iff_of_true (plain moves_utcTime _ _ rfl id) trivial
  | null => exact iff_of_true (plain moves_null _ _ rfl id) trivial
  | app => exact iff_of_true (plain moves_app _ _ rfl id) trivial
  | sequence | set => exact iff_of_true (plain (moves_constructedLike _) _ _ rfl id) trivial
  | contextualBool tagId | contextualInteger tagId | contextualOID tagId | contextualOctetString tagId
  | contextualSequence tagId => exact iff_of_true (ahead (moves_contextual _ tagId) _ rfl) trivial

/-- A Boolean of three bytes is read, and two is returned. -/
theorem asn1_boolean_not_reported : ∃ dec, ¬Asn1Read.boolean.Reports dec := by
  refine ⟨⟨.ber, [1, 1, 0xff]⟩, ?_⟩
  intro reports
  exact absurd (reports.1 (by decide)) (by decide)

end KvmServer.Winpr
