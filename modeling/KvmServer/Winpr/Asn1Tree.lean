import KvmServer.Winpr.Asn1Decoder

/-! # Tag-length-value trees

What a well-nested sequence of encoder calls stands for, its serialisation, and the readers that
match it. -/

namespace KvmServer.Winpr
open Lib

/-! ## Serialisation -/

/-- The shortest definite length: one byte below 128, otherwise as few bytes as the number needs,
behind a byte that counts them. -/
def shortestLength (n : Nat) : List UInt8 :=
  if n < 128 then [.ofNat n] else .ofNat (0x80 + (Nat.log 256 n + 1)) :: beBytes (Nat.log 256 n + 1) n

def tlv (tag : UInt8) (value : List UInt8) : List UInt8 := tag :: (shortestLength value.length ++ value)

inductive Asn1Value where
  | integer (value : BitVec 32)
  | enumerated (value : BitVec 32)
  | boolean (value : Bool)
  | oid (bytes : List UInt8)
  | octetString (bytes : List UInt8)
  | ia5String (string : CString)
  | raw (bytes : List UInt8)

def integerContent (value : BitVec 32) : List UInt8 :=
  if -2 ^ 7 ≤ value.toInt ∧ value.toInt < 2 ^ 7 then beBytes 1 value.toNat
  else if -2 ^ 15 ≤ value.toInt ∧ value.toInt < 2 ^ 15 then beBytes 2 value.toNat
  else beBytes 4 value.toNat

def Asn1Value.serialise : Asn1Value → List UInt8
  | .integer value => tlv ER_TAG_INTEGER (integerContent value)
  | .enumerated value => tlv ER_TAG_ENUMERATED (integerContent value)
  | .boolean value => tlv ER_TAG_BOOLEAN [if value then 0xff else 0]
  | .oid bytes => tlv ER_TAG_OBJECT_IDENTIFIER bytes
  | .octetString bytes => tlv ER_TAG_OCTET_STRING bytes
  | .ia5String string => tlv ER_TAG_IA5STRING string.bytes
  | .raw bytes => bytes

def inContext : Option UInt8 → List UInt8 → List UInt8
  | none, bytes => bytes
  | some tagId, bytes => tlv (ER_TAG_CONTEXTUAL ||| tagId) bytes

inductive Asn1Opening where
  | app (tagId : UInt8)
  | seq (context : Option UInt8)
  | set (context : Option UInt8)
  | octetString (context : Option UInt8)
  | contextual (tagId : UInt8)

def Asn1Opening.serialise : Asn1Opening → List UInt8 → List UInt8
  | .app tagId, inner => tlv (ER_TAG_APP ||| tagId) inner
  | .seq context, inner => inContext context (tlv ER_TAG_SEQUENCE inner)
  | .set context, inner => inContext context (tlv ER_TAG_SET inner)
  | .octetString context, inner => inContext context (tlv ER_TAG_OCTET_STRING inner)
  | .contextual tagId, inner => tlv (ER_TAG_CONTEXTUAL ||| tagId) inner

inductive Asn1Tree where
  | done
  | value (context : Option UInt8) (content : Asn1Value) (next : Asn1Tree)
  | container (opening : Asn1Opening) (inner next : Asn1Tree)

def Asn1Tree.serialise : Asn1Tree → List UInt8
  | .done => []
  | .value context content next => inContext context content.serialise ++ next.serialise
  | .container opening inner next => opening.serialise inner.serialise ++ next.serialise

/-! ## Encoder calls -/

inductive Asn1Call where
  | value (context : Option UInt8) (value : Asn1Value)
  | start (opening : Asn1Opening)
  | endContainer

variable (enc : Asn1Encoder)

def asn1Value : Option UInt8 → Asn1Value → Except Stop (Asn1Encoder × Nat)
  | none, .integer value => winPrAsn1EncInteger enc value
  | none, .enumerated value => winPrAsn1EncEnumerated enc value
  | none, .boolean value => winPrAsn1EncBoolean enc value
  | none, .oid bytes => winPrAsn1EncOID enc bytes
  | none, .octetString bytes => winPrAsn1EncOctetString enc bytes
  | none, .ia5String string => winPrAsn1EncIA5String enc string
  | none, .raw bytes => winPrAsn1EncRawContent enc bytes
  | some tagId, .integer value => winPrAsn1EncContextualInteger enc tagId value
  | some tagId, .enumerated value => winPrAsn1EncContextualEnumerated enc tagId value
  | some tagId, .boolean value => winPrAsn1EncContextualBoolean enc tagId value
  | some tagId, .oid bytes => winPrAsn1EncContextualOID enc tagId bytes
  | some tagId, .octetString bytes => winPrAsn1EncContextualOctetString enc tagId bytes
  | some tagId, .ia5String string => winPrAsn1EncContextualIA5String enc tagId string
  | some tagId, .raw bytes => winPrAsn1EncContextualRawContent enc tagId bytes

def asn1Start : Asn1Opening → Except Stop Asn1Encoder
  | .app tagId => winPrAsn1EncAppContainer enc tagId
  | .seq none => winPrAsn1EncSeqContainer enc
  | .seq (some tagId) => winPrAsn1EncContextualSeqContainer enc tagId
  | .set none => winPrAsn1EncSetContainer enc
  | .set (some tagId) => winPrAsn1EncContextualSetContainer enc tagId
  | .octetString none => winPrAsn1EncOctetStringContainer enc
  | .octetString (some tagId) => winPrAsn1EncContextualOctetStringContainer enc tagId
  | .contextual tagId => winPrAsn1EncContextualContainer enc tagId

def asn1Call : Asn1Call → Except Stop (Asn1Encoder × Nat)
  | .value context value => asn1Value enc context value
  | .start opening => do
    let enc ← asn1Start enc opening
    return (enc, 1)
  | .endContainer => winPrAsn1EncEndContainer enc

def asn1Run (enc : Asn1Encoder) : List Asn1Call → Except Stop (Asn1Encoder × List Nat)
  | [] => .ok (enc, [])
  | call :: calls => do
    let (enc, returned) ← asn1Call enc call
    let (enc, later) ← asn1Run enc calls
    return (enc, returned :: later)

def Asn1Tree.calls : Asn1Tree → List Asn1Call
  | .done => []
  | .value context content next => .value context content :: next.calls
  | .container opening inner next => .start opening :: (inner.calls ++ .endContainer :: next.calls)

def Asn1Tree.returns : Asn1Tree → List Nat
  | .done => []
  | .value context content next => (inContext context content.serialise).length :: next.returns
  | .container opening inner next =>
    1 :: (inner.returns ++ (opening.serialise inner.serialise).length :: next.returns)

def WellNested : Nat → List Asn1Call → Prop
  | 0, [] => True
  | _ + 1, [] => False
  | depth, .value _ _ :: calls => WellNested depth calls
  | depth, .start _ :: calls => WellNested (depth + 1) calls
  | 0, .endContainer :: _ => False
  | depth + 1, .endContainer :: calls => WellNested depth calls

def Closes : Nat → List Asn1Call → Prop
  | 0, rest => rest = []
  | depth + 1, rest => ∃ later, rest = .endContainer :: later ∧ WellNested depth later

theorem exists_tree_of_wellNested {depth : Nat} {calls : List Asn1Call}
    (nested : WellNested depth calls) :
    ∃ (tree : Asn1Tree) (rest : List Asn1Call), calls = tree.calls ++ rest ∧ Closes depth rest := by
  generalize len : calls.length = n
  induction n using Nat.strong_induction_on generalizing calls depth with
  | _ n ih =>
    subst len
    cases calls with
    | nil =>
      cases depth with
      | zero => exact ⟨.done, [], rfl, rfl⟩
      | succ depth => exact nested.elim
    | cons call calls =>
      cases call with
      | value ctx value =>
        have nested' : WellNested depth calls := by cases depth <;> exact nested
        obtain ⟨tree, rest, split, closed⟩ := ih calls.length (by simp) nested' rfl
        exact ⟨.value ctx value tree, rest, congrArg (Asn1Call.value ctx value :: ·) split, closed⟩
      | start opening =>
        -- the inner elements, the call that closes the container, and the elements after it
        have opened : WellNested (depth + 1) calls := by cases depth <;> exact nested
        obtain ⟨inner, rest, split, later, close, nested'⟩ := ih calls.length (by simp) opened rfl
        have lt : later.length < (Asn1Call.start opening :: calls).length := by
          rw [split, close]
          simp
          omega
        obtain ⟨next, rest', split', closed⟩ := ih later.length lt nested' rfl
        refine ⟨.container opening inner next, rest', ?_, closed⟩
        rw [split, close, split']
        simp [Asn1Tree.calls]
      | endContainer =>
        cases depth with
        | zero => exact nested.elim
        | succ depth => exact ⟨.done, _, rfl, calls, rfl, nested⟩

/-! ## Readers -/

inductive Asn1Kind where
  | integer
  | enumerated
  | boolean
  | oid
  | octetString
  | ia5String
  | raw (length : Nat)

inductive Asn1Shape where
  | done
  | value (context : Option UInt8) (kind : Asn1Kind) (next : Asn1Shape)
  | container (opening : Asn1Opening) (inner next : Asn1Shape)

def Asn1Value.kind : Asn1Value → Asn1Kind
  | .integer _ => .integer
  | .enumerated _ => .enumerated
  | .boolean _ => .boolean
  | .oid _ => .oid
  | .octetString _ => .octetString
  | .ia5String _ => .ia5String
  | .raw bytes => .raw bytes.length

def Asn1Tree.shape : Asn1Tree → Asn1Shape
  | .done => .done
  | .value context content next => .value context content.kind next.shape
  | .container opening inner next => .container opening inner.shape next.shape

def readRaw (length : Nat) (dec : Asn1Decoder) : Option (Nat × List UInt8 × Asn1Decoder) :=
  match takeValue dec length with
  | none => none
  | some (bytes, dec) => some (length, bytes, dec)

def asRead {α β : Type} (f : α → β) : Option (Nat × α × Asn1Decoder) → Option (β × Asn1Decoder)
  | none => none
  | some (_, target, dec) => some (f target, dec)

/-- The reader for a value; where there is none for a contextual one, the tag is read first. -/
def asn1ReadValue (dec : Asn1Decoder) : Option UInt8 → Asn1Kind → Option (Asn1Value × Asn1Decoder)
  | none, .integer => asRead .integer (winPrAsn1DecReadInteger dec)
  | none, .enumerated => asRead .enumerated (winPrAsn1DecReadEnumerated dec)
  | none, .boolean => asRead .boolean (winPrAsn1DecReadBoolean dec)
  | none, .oid => asRead .oid (winPrAsn1DecReadOID dec)
  | none, .octetString => asRead .octetString (winPrAsn1DecReadOctetString dec)
  | none, .ia5String => asRead .ia5String (winPrAsn1DecReadIA5String dec)
  | none, .raw length => asRead .raw (readRaw length dec)
  | some tagId, .integer => asRead .integer (winPrAsn1DecReadContextualInteger dec tagId)
  | some tagId, .enumerated => asRead .enumerated (readContextual winPrAsn1DecReadEnumerated dec tagId)
  | some tagId, .boolean => asRead .boolean (winPrAsn1DecReadContextualBool dec tagId)
  | some tagId, .oid => asRead .oid (winPrAsn1DecReadContextualOID dec tagId)
  | some tagId, .octetString => asRead .octetString (winPrAsn1DecReadContextualOctetString dec tagId)
  | some tagId, .ia5String => asRead .ia5String (readContextual winPrAsn1DecReadIA5String dec tagId)
  | some tagId, .raw length => asRead .raw (readContextual (readRaw length) dec tagId)

def expectTag (tagId : UInt8) :
    Option (Nat × UInt8 × Asn1Decoder × Asn1Decoder) → Option (Asn1Decoder × Asn1Decoder)
  | none => none
  | some (_, found, content, dec) => if found = tagId then some (content, dec) else none

def asn1ReadOpening (dec : Asn1Decoder) : Asn1Opening → Option (Asn1Decoder × Asn1Decoder)
  | .app tagId => expectTag tagId (winPrAsn1DecReadApp dec)
  | .seq none => asRead id (winPrAsn1DecReadSequence dec)
  | .seq (some tagId) => asRead id (winPrAsn1DecReadContextualSequence dec tagId)
  | .set none => asRead id (winPrAsn1DecReadSet dec)
  | .set (some tagId) => asRead id (readContextual winPrAsn1DecReadSet dec tagId)
  | .octetString none => asRead (Asn1Decoder.mk dec.encoding) (winPrAsn1DecReadOctetString dec)
  | .octetString (some tagId) =>
    asRead (Asn1Decoder.mk dec.encoding) (winPrAsn1DecReadContextualOctetString dec tagId)
  | .contextual tagId => expectTag tagId (winPrAsn1DecReadContextualTag dec)

def asn1Read (dec : Asn1Decoder) : Asn1Shape → Option (Asn1Tree × Asn1Decoder)
  | .done => some (.done, dec)
  | .value context kind next =>
    match asn1ReadValue dec context kind with
    | none => none
    | some (value, dec) =>
      match asn1Read dec next with
      | none => none
      | some (tree, dec) => some (.value context value tree, dec)
  | .container opening inner next =>
    match asn1ReadOpening dec opening with
    | none => none
    | some (content, dec) =>
      match asn1Read content inner with
      | some (innerTree, ⟨_, []⟩) =>
        match asn1Read dec next with
        | none => none
        | some (tree, dec) => some (.container opening innerTree tree, dec)
      | _ => none

end KvmServer.Winpr
