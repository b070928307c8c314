import KvmServer.Winpr.Asn1Encoder

/-! # ASN.1 round trip

Each reader, applied to what its element is serialised to, gives back the element and leaves the decoder
behind it. -/

namespace KvmServer.Winpr
open Lib List Nat

/-! ## Lengths -/

variable {k n : Nat} {tagId : UInt8} {element : List UInt8}

theorem count_byte (small : k < 128) :
    UInt8.ofNat (0x80 + k) &&& 0x80 ≠ 0 ∧ (UInt8.ofNat (0x80 + k) &&& 0x7f).toNat = k := by
  revert k
  decide

theorem short_byte (small : n < 128) : ¬UInt8.ofNat n &&& 0x80 ≠ 0 := by
  revert n
  decide

theorem foldl_beBytes (k : Nat) (fits : n < 256 ^ k) (small : n < 2 ^ 64) :
    (beBytes k n).foldl (fun retLen tmp => (retLen * 2 ^ 8 + tmp.toNat) % 2 ^ 64) 0 = n := by
  induction k generalizing n with
  | zero =>
    rw [pow_zero, lt_one_iff] at fits
    rw [fits]
    rfl
  | succ k ih =>
    have high : n / 2 ^ 8 < 256 ^ k := by
      omega
    rw [beBytes, leBytes, reverse_cons, foldl_append]
    change ((beBytes k (n / 2 ^ 8)).foldl _ 0 * 2 ^ 8 + (UInt8.ofNat n).toNat) % 2 ^ 64 = n
    rw [ih high (by omega), UInt8.toNat_ofNat']
    omega

theorem readLen_long (derCheck : Bool) (count : k < 128) (fits : n < 256 ^ k)
    (small : n < 2 ^ 64) (long : 128 ≤ n) (rest : List UInt8) :
    readLen derCheck (UInt8.ofNat (0x80 + k) :: beBytes k n ++ rest) = some (n, 1 + k, rest) := by
  obtain ⟨mark, bs⟩ := count_byte count
  have room : ¬(beBytes k n ++ rest).length < k := by simp
  have value := foldl_beBytes k fits small
  rw [cons_append, readLen, if_pos mark]
  simp only [bs, if_neg room, take_left' (beBytes_length k n), drop_left' (beBytes_length k n), value]
  rw [if_neg (by omega)]

theorem log256_lt {n k : Nat} (fits : n < 256 ^ (k + 1)) : Nat.log 256 n < k + 1 :=
  log_lt_of_lt_pow' (succ_ne_zero k) fits

theorem readLen_shortestLength (derCheck : Bool) (fits : n < 2 ^ 32) (rest : List UInt8) :
    readLen derCheck (shortestLength n ++ rest) = some (n, (shortestLength n).length, rest) := by
  by_cases small : n < 128
  · rw [shortestLength_small small, singleton_append, readLen, if_neg (short_byte small),
      UInt8.toNat_ofNat', mod_eq_of_lt (by omega), length_singleton]
  have log : Nat.log 256 n < 4 := @log256_lt n 3 (by omega)
  have size : n < 256 ^ (Nat.log 256 n + 1) := lt_pow_succ_log_self (by decide) n
  rw [shortestLength, if_neg small, readLen_long derCheck (by omega) size (by omega) (by omega),
    length_cons, beBytes_length, add_comm]

theorem readValue_tlv (rule : Asn1EncodingRule) (tag : UInt8) {value : List UInt8}
    (fits : value.length < 2 ^ 32) (rest : List UInt8) : readValue ⟨rule, tlv tag value ++ rest⟩ =
      some (tag, value, 1 + (shortestLength value.length).length, ⟨rule, rest⟩) := by
  have header : readTagAndLen ⟨rule, tlv tag value ++ rest⟩ =
      some (tag, value.length, 1 + (shortestLength value.length).length, ⟨rule, value ++ rest⟩) := by
    rw [tlv, cons_append, append_assoc, readTagAndLen]
    simp only [readLen_shortestLength _ fits]
  have taken : takeValue ⟨rule, value ++ rest⟩ value.length = some (value, ⟨rule, rest⟩) := by
    rw [takeValue, if_neg (by simp), take_left, drop_left]
  rw [readValue, header]
  simp only [taken]

theorem toNat_shift_or (uval : BitVec 32) (v : UInt8) :
    (uval <<< 8 ||| BitVec.ofNat 32 v.toNat).toNat = (uval.toNat * 2 ^ 8 + v.toNat) % 2 ^ 32 := by
  have small := v.toNat_lt
  have shf : uval.toNat <<< 8 % 2 ^ 32 = 2 ^ 8 * (uval.toNat % 2 ^ 24) := by
    omega
  rw [BitVec.toNat_or, BitVec.toNat_shiftLeft, BitVec.toNat_ofNat,
    mod_eq_of_lt (by omega : v.toNat < 2 ^ 32), shf, ← two_pow_add_eq_or_of_lt small]
  omega

theorem toNat_sign (v : UInt8) :
    ((if v &&& 0x80 ≠ 0 then (0xFFFFFF00 : BitVec 32) else 0) ||| BitVec.ofNat 32 v.toNat).toNat =
      if 128 ≤ v.toNat then 2 ^ 32 - 256 + v.toNat else v.toNat := by
  have small := v.toNat_lt
  have bit := highBit_ne_zero_iff v
  have byte : (BitVec.ofNat 32 v.toNat).toNat = v.toNat := by
    rw [BitVec.toNat_ofNat, mod_eq_of_lt (by omega)]
  by_cases neg : 128 ≤ v.toNat
  · rw [if_pos (bit.mpr neg), if_pos neg, BitVec.toNat_or, byte]
    exact (two_pow_add_eq_or_of_lt small 0xFFFFFF).symm
  rw [if_neg (fun h => neg (bit.mp h)), if_neg neg, BitVec.toNat_or, byte]
  exact zero_or _

theorem integer_read (value : BitVec 32) : ∃ v bytes, integerContent value = v :: bytes ∧
    (v :: bytes).length ≤ 4 ∧ readIntegerBytes
      ((if v &&& 0x80 ≠ 0 then (0xFFFFFF00 : BitVec 32) else 0) ||| BitVec.ofNat 32 v.toNat) bytes =
        value := by
  have sign := BitVec.toInt_eq_toNat_cond value
  obtain ⟨-, content, low, high⟩ | ⟨-, content, low, high⟩ | ⟨-, content⟩ := integer_cases value
  · refine ⟨_, _, content, by simp, BitVec.eq_of_toNat_eq ?_⟩
    rw [readIntegerBytes, foldl_nil, toNat_sign, UInt8.toNat_ofNat']
    split at sign <;> split <;> omega
  · refine ⟨_, _, content, by simp, BitVec.eq_of_toNat_eq ?_⟩
    rw [readIntegerBytes, foldl_cons, foldl_nil, toNat_shift_or, toNat_sign,
      UInt8.toNat_ofNat', UInt8.toNat_ofNat']
    split at sign <;> split <;> omega
  refine ⟨_, _, content, by simp, BitVec.eq_of_toNat_eq ?_⟩
  rw [readIntegerBytes, foldl_cons, foldl_cons, foldl_cons, foldl_nil, toNat_shift_or,
    toNat_shift_or, toNat_shift_or, toNat_sign]
  simp only [UInt8.toNat_ofNat']
  split <;> omega

/-! ## Values -/

def Reads {α : Type} (rule : Asn1EncodingRule) (read : Asn1Decoder → Option (Nat × α × Asn1Decoder))
    (element : List UInt8) (value : α) : Prop :=
  ∀ rest, ∃ returned, read ⟨rule, element ++ rest⟩ = some (returned, value, ⟨rule, rest⟩)

variable {rule : Asn1EncodingRule}

theorem readIntegerLike_reads (tag : UInt8) (value : BitVec 32) :
    Reads rule (winPrAsn1DecReadIntegerLike · tag) (tlv tag (integerContent value)) value := by
  intro rest
  obtain ⟨v, bs, content, _, read⟩ := integer_read value
  have fits : (integerContent value).length < 2 ^ 32 := by
    rw [content]
    omega
  have element := readValue_tlv rule tag fits rest
  rw [content] at element ⊢
  have len : ¬(v :: bs).length > 4 := by omega
  refine ⟨1 + (shortestLength (v :: bs).length).length + (v :: bs).length, ?_⟩
  · simp only [winPrAsn1DecReadIntegerLike, element, if_neg len, ne_eq, not_true_eq_false, if_false]
    rw [read]

theorem readBoolean_reads (value : Bool) :
    Reads rule winPrAsn1DecReadBoolean (tlv ER_TAG_BOOLEAN [if value then 0xff else 0]) value := by
  intro rest
  have element := @readValue_tlv rule ER_TAG_BOOLEAN [if value then 0xff else 0] (by simp) rest
  refine ⟨1 + (shortestLength 1).length, ?_⟩
  · simp only [winPrAsn1DecReadBoolean, element, if_true]
    cases value <;> rfl

theorem readMemoryChunkLike_reads (tag : UInt8) {bytes : List UInt8} (fits : bytes.length < 2 ^ 32) :
    Reads rule (winPrAsn1DecReadMemoryChunkLike · tag) (tlv tag bytes) bytes := by
  intro _
  refine ⟨1 + (shortestLength bytes.length).length + bytes.length, ?_⟩
  · simp only [winPrAsn1DecReadMemoryChunkLike, readValue_tlv rule tag fits, if_true]

theorem readIA5String_reads {string : CString} (fits : string.bytes.length < 2 ^ 32) :
    Reads rule winPrAsn1DecReadIA5String (tlv ER_TAG_IA5STRING string.bytes) string := by
  intro rest
  obtain ⟨returned, read⟩ := @readMemoryChunkLike_reads rule ER_TAG_IA5STRING _ fits rest
  have same : cString (string.bytes ++ [0]) = string := by
    obtain ⟨bytes, noZero⟩ := string
    have all : (bytes ++ [0]).takeWhile (· ≠ 0) = bytes := by
      rw [takeWhile_append_of_pos]
      · simp
      intro byte mem
      have nz : byte ≠ 0 := fun zero => noZero (zero ▸ mem)
      simpa using nz
    simp only [cString, all]
  refine ⟨returned, ?_⟩
  · simp only [winPrAsn1DecReadIA5String, read, same]

theorem readRaw_reads (bytes : List UInt8) : Reads rule (readRaw bytes.length) bytes bytes := by
  intro rest
  have taken : takeValue ⟨rule, bytes ++ rest⟩ bytes.length = some (bytes, ⟨rule, rest⟩) := by
    rw [takeValue, if_neg (by simp), take_left, drop_left]
  refine ⟨bytes.length, ?_⟩
  · simp only [readRaw, taken]

/-! ## Containers and contexts -/

theorem readConstructed_tlv (tag : UInt8) {value : List UInt8} (fits : value.length < 2 ^ 32)
    (rest : List UInt8) :
    ∃ returned, readConstructed ⟨rule, tlv tag value ++ rest⟩ =
    some (returned, tag, ⟨rule, value⟩, ⟨rule, rest⟩) := by
  refine ⟨1 + (shortestLength value.length).length + value.length, ?_⟩
  · simp only [readConstructed, readValue_tlv rule tag fits]

theorem class_tag (cls : UInt8) (known : cls ∈ [ER_TAG_CONTEXTUAL, ER_TAG_APP]) (small : tagId < 31) :
    ¬(cls ||| tagId) &&& cls ≠ cls ∧ (cls ||| tagId) &&& ER_TAG_MASK = tagId := by
  have all : ∀ cls ∈ [ER_TAG_CONTEXTUAL, ER_TAG_APP], ∀ n < 31, ¬(cls ||| UInt8.ofNat n) &&& cls ≠ cls ∧
      (cls ||| UInt8.ofNat n) &&& ER_TAG_MASK = UInt8.ofNat n := by decide +kernel
  have here := all cls known tagId.toNat (UInt8.lt_iff_toNat_lt.mp small)
  rwa [UInt8.ofNat_toNat] at here

section
variable {tagId : UInt8} (lt : tagId < 31) {val : List UInt8} (fits : val.length < 2 ^ 32)
  (rest : List UInt8)
include lt fits

theorem readContextualTag_tlv : ∃ returned,
    winPrAsn1DecReadContextualTag ⟨rule, tlv (ER_TAG_CONTEXTUAL ||| tagId) val ++ rest⟩ =
      some (returned, tagId, ⟨rule, val⟩, ⟨rule, rest⟩) := by
  obtain ⟨returned, read⟩ := @readConstructed_tlv rule (ER_TAG_CONTEXTUAL ||| tagId) val fits rest
  obtain ⟨contextual, same⟩ := class_tag ER_TAG_CONTEXTUAL (by decide) lt
  refine ⟨returned, ?_⟩
  simp only [winPrAsn1DecReadContextualTag, read, if_neg contextual, same]

theorem readApp_tlv : ∃ returned, winPrAsn1DecReadApp ⟨rule, tlv (ER_TAG_APP ||| tagId) val ++ rest⟩ =
      some (returned, tagId, ⟨rule, val⟩, ⟨rule, rest⟩) := by
  obtain ⟨returned, read⟩ := @readConstructed_tlv rule (ER_TAG_APP ||| tagId) val fits rest
  obtain ⟨app, same⟩ := class_tag ER_TAG_APP (by decide) lt
  refine ⟨returned, ?_⟩
  simp only [winPrAsn1DecReadApp, read, if_neg app, same]

end

theorem Reads.inContext {α : Type} {read : Asn1Decoder → Option (Nat × α × Asn1Decoder)} {value : α}
    (rd : Reads rule read element value) (small : tagId < 31) (fits : element.length < 2 ^ 32) :
    Reads rule (readContextual read · tagId) (tlv (ER_TAG_CONTEXTUAL ||| tagId) element) value := by
  intro rest
  obtain ⟨returned, tag⟩ := @readContextualTag_tlv rule tagId small element fits rest
  obtain ⟨_, content⟩ := rd []
  rw [append_nil] at content
  refine ⟨returned, ?_⟩
  · simp only [readContextual, tag, ne_eq, not_true_eq_false, if_false, content]

theorem readConstructedLike_reads (tag : UInt8) {value : List UInt8} (fits : value.length < 2 ^ 32) :
    Reads rule (readConstructedLike · tag) (tlv tag value) ⟨rule, value⟩ := by
  intro rest
  obtain ⟨returned, read⟩ := @readConstructed_tlv rule tag value fits rest
  refine ⟨returned, ?_⟩
  · simp only [readConstructedLike, read, ne_eq, not_true_eq_false, if_false]

theorem Reads.asRead {α β : Type} {read : Asn1Decoder → Option (Nat × α × Asn1Decoder)} {value : α}
    (rd : Reads rule read element value) (f : α → β) (rest : List UInt8) :
    Winpr.asRead f (read ⟨rule, element ++ rest⟩) = some (f value, ⟨rule, rest⟩) := by
  obtain ⟨_, res⟩ := rd rest
  rw [res]
  rfl

/-! ## Trees -/

theorem asn1ReadValue_serialise {ctx : Option UInt8} {content : Asn1Value}
    (admissible : (Asn1Call.value ctx content).Admissible)
    (fits : (inContext ctx content.serialise).length < 2 ^ 32) (rest : List UInt8) :
    asn1ReadValue ⟨rule, inContext ctx content.serialise ++ rest⟩ ctx content.kind =
    some (content, ⟨rule, rest⟩) := by
  have chunk : ∀ {tag : UInt8} {bs : List UInt8}, (tlv tag bs).length < 2 ^ 32 → bs.length < 2 ^ 32 :=
    fun small => lt_of_le_of_lt (length_le_tlv _ _) small
  cases ctx with
  | none =>
    cases content with
    | integer value | enumerated value => exact (readIntegerLike_reads _ value).asRead _ rest
    | boolean value => exact (readBoolean_reads value).asRead _ rest
    | oid bs | octetString bs => exact (readMemoryChunkLike_reads _ (chunk fits)).asRead _ rest
    | ia5String string => exact (readIA5String_reads (chunk fits)).asRead _ rest
    | raw bs => exact (readRaw_reads bs).asRead _ rest
  | some tagId =>
    have small := admissible.1 tagId rfl
    cases content with
    | integer value | enumerated value =>
      exact ((readIntegerLike_reads _ value).inContext small (chunk fits)).asRead _ rest
    | boolean value => exact ((readBoolean_reads value).inContext small (chunk fits)).asRead _ rest
    | oid bs | octetString bs =>
      exact ((readMemoryChunkLike_reads _ (chunk (chunk fits))).inContext small (chunk fits)).asRead
        _ rest
    | ia5String string =>
      exact ((readIA5String_reads (chunk (chunk fits))).inContext small (chunk fits)).asRead _ rest
    | raw bs => exact ((readRaw_reads bs).inContext small (chunk fits)).asRead _ rest

theorem asn1ReadOpening_serialise {opening : Asn1Opening}
    (admissible : (Asn1Call.start opening).Admissible)
    {inner : List UInt8} (fits : (opening.serialise inner).length < 2 ^ 32) (rest : List UInt8) :
    asn1ReadOpening ⟨rule, opening.serialise inner ++ rest⟩ opening =
    some (⟨rule, inner⟩, ⟨rule, rest⟩) := by
  have chunk : ∀ {tag : UInt8} {bs : List UInt8}, (tlv tag bs).length < 2 ^ 32 → bs.length < 2 ^ 32 :=
    fun small => lt_of_le_of_lt (length_le_tlv _ _) small
  cases opening with
  | app tagId =>
    obtain ⟨returned, read⟩ := @readApp_tlv rule tagId admissible inner (chunk fits) rest
    rw [Asn1Opening.serialise, asn1ReadOpening, read]
    exact if_pos rfl
  | contextual tagId =>
    obtain ⟨returned, read⟩ := @readContextualTag_tlv rule tagId admissible inner (chunk fits) rest
    rw [Asn1Opening.serialise, asn1ReadOpening, read]
    exact if_pos rfl
  | seq ctx | set ctx =>
    cases ctx with
    | none => exact (readConstructedLike_reads _ (chunk fits)).asRead id rest
    | some tagId =>
      exact ((readConstructedLike_reads _ (chunk (chunk fits))).inContext
        (admissible tagId rfl) (chunk fits)).asRead id rest
  | octetString ctx =>
    cases ctx with
    | none => exact (readMemoryChunkLike_reads _ (chunk fits)).asRead _ rest
    | some tagId =>
      exact ((readMemoryChunkLike_reads _ (chunk (chunk fits))).inContext
        (admissible tagId rfl) (chunk fits)).asRead _ rest

/-- A tree is read back from its serialisation, by induction on the tree. -/
theorem asn1Read_serialise (tree : Asn1Tree) (admissible : ∀ call ∈ tree.calls, call.Admissible)
    (fits : tree.serialise.length < 2 ^ 32) (rest : List UInt8) :
    asn1Read ⟨rule, tree.serialise ++ rest⟩ tree.shape = some (tree, ⟨rule, rest⟩) := by
  induction tree generalizing rest with
  | done => rfl
  | value ctx content next ih =>
    rw [Asn1Tree.serialise, length_append] at fits
    have fst :=
      @asn1ReadValue_serialise rule ctx content (admissible _ mem_cons_self) (by omega) (next.serialise ++ rest)
    have later := ih (fun call mem => admissible call (mem_cons_of_mem _ mem)) (by omega) rest
    rw [Asn1Tree.serialise, append_assoc, Asn1Tree.shape, asn1Read, fst]
    simp only [later]
  | container opening inner next innHypothesis nextHypothesis =>
    rw [Asn1Tree.serialise, length_append] at fits
    have admissible' : ∀ call ∈ inner.calls ++ Asn1Call.endContainer :: next.calls, call.Admissible :=
      fun call mem => admissible call (mem_cons_of_mem _ mem)
    have small : (opening.serialise inner.serialise).length < 2 ^ 32 := by omega
    have fst :=
      @asn1ReadOpening_serialise rule opening (admissible _ mem_cons_self) _ small (next.serialise ++ rest)
    have elems :=
      innHypothesis (fun call mem => admissible' call (mem_append_left _ mem)) (inner_small small) []
    have later :=
      nextHypothesis (fun call mem => admissible' call (mem_append_right _ (mem_cons_of_mem _ mem))) (by omega) rest
    rw [append_nil] at elems
    rw [Asn1Tree.serialise, append_assoc, Asn1Tree.shape, asn1Read, fst]
    simp only [elems, later]

theorem Asn1Encoder.holds_fresh {enc : Asn1Encoder}
    (fresh : enc.chunks = [] ∧ enc.containers = []) : enc.Holds [[]] := by
  unfold Asn1Encoder.Holds
  rw [fresh.1, fresh.2]
  have laid : Laid enc.position [] enc.position := rfl
  exact .top laid

theorem Asn1Encoder.Holds.written {enc : Asn1Encoder} {bs : List UInt8}
    (h : enc.Holds [bs]) (closed : enc.containers = []) :
    winPrAsn1EncStreamSize enc = some bs.length ∧ ∀ s, winPrAsn1EncToStream enc s = some (s ++ bs) := by
  have written : bs = contents enc.pool enc.chunks := by
    unfold Asn1Encoder.Holds at h
    rw [closed] at h
    cases h
    rfl
  have size : winPrAsn1EncStreamSize enc = some bs.length := by
    rw [winPrAsn1EncStreamSize, closed, if_neg (by simp), ← contents_length, written]
  refine ⟨size, fun s => ?_⟩
  rw [winPrAsn1EncToStream, size, written]
  rfl

/-- A well-nested sequence of calls stands for a tree: its serialisation is written, each call
returns the size of its element, and the readers give the tree back. -/
theorem asn1_encoder_correct {enc : Asn1Encoder} (fresh : enc.chunks = [] ∧ enc.containers = [])
    {calls : List Asn1Call} (nested : WellNested 0 calls)
    (admissible : ∀ call ∈ calls, call.Admissible) :
    ∃ tree : Asn1Tree, calls = tree.calls ∧ (tree.serialise.length < 2 ^ 32 →
        (∃ enc', asn1Run enc calls = .ok (enc', tree.returns) ∧
          winPrAsn1EncStreamSize enc' = some tree.serialise.length ∧
          ∀ s, winPrAsn1EncToStream enc' s = some (s ++ tree.serialise)) ∧
        ∀ rule, asn1Read ⟨rule, tree.serialise⟩ tree.shape = some (tree, ⟨rule, []⟩)) := by
  obtain ⟨tree, _, split, closed⟩ := exists_tree_of_wellNested nested
  cases closed
  rw [List.append_nil] at split
  subst split
  refine ⟨tree, rfl, fun fits => ⟨?_, fun rule => ?_⟩⟩
  · obtain ⟨enc', run, containers, h⟩ :=
      asn1Run_tree tree (Asn1Encoder.holds_fresh fresh) admissible fits
    exact ⟨enc', run, Asn1Encoder.Holds.written h (containers.trans fresh.2)⟩
  have read := @asn1Read_serialise rule tree admissible fits []
  rwa [List.append_nil] at read

/-- A sequence with an empty set and a contextual integer in it. -/
theorem asn1_encoder_correct_sequence : ∃ tree : Asn1Tree,
      [.start (.seq none), .start (.set (some 3)), .endContainer, .value (some 7) (.integer 200),
        .endContainer] = tree.calls ∧ (tree.serialise.length < 2 ^ 32 →
        (∃ enc', asn1Run asn1EncoderNew [.start (.seq none), .start (.set (some 3)), .endContainer,
            .value (some 7) (.integer 200), .endContainer] = .ok (enc', tree.returns) ∧
          winPrAsn1EncStreamSize enc' = some tree.serialise.length ∧
          ∀ s, winPrAsn1EncToStream enc' s = some (s ++ tree.serialise)) ∧
        ∀ rule, asn1Read ⟨rule, tree.serialise⟩ tree.shape = some (tree, ⟨rule, []⟩)) := by
  apply asn1_encoder_correct ⟨rfl, rfl⟩
  · exact trivial
  · simp [Asn1Call.Admissible]

end KvmServer.Winpr
