import KvmServer.Winpr.Asn1

/-! # ASN.1 decoder (`winpr/utils/asn1.c`)

A decoder is the encoding rule and the bytes that are still to be read.  A reader that returns 0 gives
`none`; otherwise it gives what it returns, what it has read and the decoder afterwards. -/

namespace KvmServer.Winpr
open Lib

inductive Asn1EncodingRule where
  | ber
  | der
deriving DecidableEq

structure Asn1Decoder where
  encoding : Asn1EncodingRule
  source : List UInt8

def readLen (derCheck : Bool) : List UInt8 → Option (Nat × Nat × List UInt8)
  | [] => none
  | first :: s =>
    if first &&& 0x80 ≠ 0 then
      let nBytes := (first &&& 0x7f).toNat
      if s.length < nBytes then none
      else
        let retLen := (s.take nBytes).foldl (fun retLen tmp => (retLen * 2 ^ 8 + tmp.toNat) % 2 ^ 64) 0
        if derCheck ∧ 1 + nBytes > 1 ∧
          retLen < 128 then none else some (retLen, 1 + nBytes, s.drop nBytes)
    else some (first.toNat, 1, s)

variable (dec : Asn1Decoder)

def readTagAndLen : Option (UInt8 × Nat × Nat × Asn1Decoder) :=
  match dec.source with
  | [] => none
  | tag :: s =>
    match readLen (dec.encoding = .der) s with
    | none => none
    | some (len, lenBytes, s) => some (tag, len, 1 + lenBytes, { dec with source := s })

def takeValue (len : Nat) : Option (List UInt8 × Asn1Decoder) :=
  if dec.source.length < len then none
  else some (dec.source.take len, { dec with source := dec.source.drop len })

def readValue : Option (UInt8 × List UInt8 × Nat × Asn1Decoder) :=
  match readTagAndLen dec with
  | none => none
  | some (tag, len, returned, dec) =>
    match takeValue dec len with
    | none => none
    | some (value, dec) => some (tag, value, returned, dec)

/-! ## Values -/

/-- What is returned does not count the value. -/
def winPrAsn1DecReadBoolean : Option (Nat × Bool × Asn1Decoder) :=
  match readValue dec with
  | some (tag, [v], returned, dec) => if tag = ER_TAG_BOOLEAN then some (returned, v ≠ 0, dec) else none
  | _ => none

def readIntegerBytes (uval : BitVec 32) (bytes : List UInt8) : BitVec 32 :=
  bytes.foldl (fun uval v => uval <<< 8 ||| BitVec.ofNat 32 v.toNat) uval

def winPrAsn1DecReadIntegerLike (expectedTag : UInt8) : Option (Nat × BitVec 32 × Asn1Decoder) :=
  match readValue dec with
  | some (tag, v :: bytes, returned, dec) =>
    if tag ≠ expectedTag then none
    else if (v :: bytes).length > 4 then none
    else
      let isNegative := v &&& 0x80 ≠ 0
      let uval : BitVec 32 := (if isNegative then 0xFFFFFF00 else 0) ||| BitVec.ofNat 32 v.toNat
      some (returned + (v :: bytes).length, readIntegerBytes uval bytes, dec)
  | _ => none

def winPrAsn1DecReadInteger : Option (Nat × BitVec 32 × Asn1Decoder) :=
  winPrAsn1DecReadIntegerLike dec ER_TAG_INTEGER

def winPrAsn1DecReadEnumerated : Option (Nat × BitVec 32 × Asn1Decoder) :=
  winPrAsn1DecReadIntegerLike dec ER_TAG_ENUMERATED

def winPrAsn1DecReadMemoryChunkLike (expectedTag : UInt8) : Option (Nat × List UInt8 × Asn1Decoder) :=
  match readValue dec with
  | none => none
  | some (tag, value, returned, dec) =>
      if tag = expectedTag then some (returned + value.length, value, dec) else none

def winPrAsn1DecReadOID : Option (Nat × List UInt8 × Asn1Decoder) :=
  winPrAsn1DecReadMemoryChunkLike dec ER_TAG_OBJECT_IDENTIFIER

def winPrAsn1DecReadOctetString : Option (Nat × List UInt8 × Asn1Decoder) :=
  winPrAsn1DecReadMemoryChunkLike dec ER_TAG_OCTET_STRING

def cString (memory : List UInt8) : CString where
  bytes := memory.takeWhile (· ≠ 0)
  noZero := by
    intro zero
    have := List.mem_takeWhile_imp zero
    simp at this

/-- The copy gets a zero at its end. -/
def winPrAsn1DecReadIA5String : Option (Nat × CString × Asn1Decoder) :=
  match winPrAsn1DecReadMemoryChunkLike dec ER_TAG_IA5STRING with
  | none => none
  | some (returned, value, dec) => some (returned, cString (value ++ [0]), dec)

def winPrAsn1DecReadGeneralString : Option (Nat × CString × Asn1Decoder) :=
  match winPrAsn1DecReadMemoryChunkLike dec ER_TAG_GENERAL_STRING with
  | none => none
  | some (returned, value, dec) => some (returned, cString (value ++ [0]), dec)

def winPrAsn1DecReadNull : Option (Nat × Unit × Asn1Decoder) :=
  match readTagAndLen dec with
  | some (tag, len, returned, dec) =>
      if tag ≠ ER_TAG_NULL ∨ len ≠ 0 then none else some (returned, (), dec)
  | none => none

/-- Two decimal digits; `none` is a -1. -/
def read2digits : List UInt8 → Option (Nat × List UInt8)
  | c :: d :: s =>
    if c < 48 ∨ c > 57 then none
    else if d < 48 ∨ d > 57 then none
    else some ((c.toNat - 48) * 10 + (d.toNat - 48), s)
  | _ => none

/-- A field of a time; a zero counts as an error. -/
def readTimeField (s : List UInt8) : Option (UInt8 × List UInt8) :=
  match read2digits s with
  | none => none
  | some (v, s) => if v = 0 then none else some (.ofNat v, s)

structure Asn1UtcTime where
  year : Nat
  (month day hour minute second : UInt8)
  /-- A time without a zone leaves the one of the caller. -/
  tz : Option UInt8

def readUtcFields (s : List UInt8) : Option Asn1UtcTime := do
  let (year, s) ← readTimeField s
  let (month, s) ← readTimeField s
  let (day, s) ← readTimeField s
  let (hour, s) ← readTimeField s
  let (minute, s) ← readTimeField s
  let (second, s) ← readTimeField s
  return ⟨2000 + year.toNat, month, day, hour, minute, second, s.head?⟩

def winPrAsn1DecReadUtcTime : Option (Nat × Asn1UtcTime × Asn1Decoder) :=
  match readValue dec with
  | none => none
  | some (tag, value, returned, dec) =>
    if tag ≠ ER_TAG_UTCTIME ∨ value.length < 12 then none
    else (readUtcFields value).map fun time => (returned + value.length, time, dec)

def winPrAsn1DecReadTagAndLen : Option (Nat × (UInt8 × Nat) × Asn1Decoder) :=
  (readTagAndLen dec).map fun (tag, len, returned, dec) => (returned, (tag, len), dec)

/-! ## Containers -/

def readConstructed : Option (Nat × UInt8 × Asn1Decoder × Asn1Decoder) :=
  match readValue dec with
  | none => none
  | some (tag, value, returned, dec) => some (returned + value.length, tag, ⟨dec.encoding, value⟩, dec)

def winPrAsn1DecReadTagLenValue : Option (Nat × (UInt8 × Asn1Decoder) × Asn1Decoder) :=
  (readConstructed dec).map fun (returned, tag, value, dec) => (returned, (tag, value), dec)

def winPrAsn1DecReadApp : Option (Nat × UInt8 × Asn1Decoder × Asn1Decoder) :=
  match readConstructed dec with
  | none => none
  | some (returned, tag, target, dec) =>
    if tag &&& ER_TAG_APP ≠ ER_TAG_APP then none else some (returned, tag &&& ER_TAG_MASK, target, dec)

/-- `WinPrAsn1DecReadSequence` and `WinPrAsn1DecReadSet`. -/
def readConstructedLike (expectedTag : UInt8) : Option (Nat × Asn1Decoder × Asn1Decoder) :=
  match readConstructed dec with
  | none => none
  | some (returned, tag, target, dec) => if tag ≠ expectedTag then none else some (returned, target, dec)

def winPrAsn1DecReadSequence : Option (Nat × Asn1Decoder × Asn1Decoder) :=
  readConstructedLike dec ER_TAG_SEQUENCE

def winPrAsn1DecReadSet : Option (Nat × Asn1Decoder × Asn1Decoder) :=
  readConstructedLike dec ER_TAG_SET

def winPrAsn1DecReadContextualTag : Option (Nat × UInt8 × Asn1Decoder × Asn1Decoder) :=
  match readConstructed dec with
  | none => none
  | some (returned, ftag, target, dec) =>
    if ftag &&& ER_TAG_CONTEXTUAL ≠ ER_TAG_CONTEXTUAL then none
      else some (returned, ftag &&& ER_TAG_MASK, target, dec)

/-- The header, then one of the readers above for the content.  Another tag counts as an absent
element. -/
def readContextual {α : Type} (read : Asn1Decoder → Option (Nat × α × Asn1Decoder)) (dec : Asn1Decoder)
    (tagId : UInt8) : Option (Nat × α × Asn1Decoder) :=
  match winPrAsn1DecReadContextualTag dec with
  | none => none
  | some (returned, ftag, content, dec) =>
    if ftag ≠ tagId then none
    else
      match read content with
      | none => none
      | some (_, target, _) => some (returned, target, dec)

variable (tagId : UInt8)

def winPrAsn1DecReadContextualBool : Option (Nat × Bool × Asn1Decoder) :=
  readContextual winPrAsn1DecReadBoolean dec tagId

def winPrAsn1DecReadContextualInteger : Option (Nat × BitVec 32 × Asn1Decoder) :=
  readContextual winPrAsn1DecReadInteger dec tagId

def winPrAsn1DecReadContextualOID : Option (Nat × List UInt8 × Asn1Decoder) :=
  readContextual winPrAsn1DecReadOID dec tagId

def winPrAsn1DecReadContextualOctetString : Option (Nat × List UInt8 × Asn1Decoder) :=
  readContextual winPrAsn1DecReadOctetString dec tagId

def winPrAsn1DecReadContextualSequence : Option (Nat × Asn1Decoder × Asn1Decoder) :=
  readContextual winPrAsn1DecReadSequence dec tagId

end KvmServer.Winpr
