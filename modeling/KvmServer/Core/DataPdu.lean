import KvmServer.Codec.Ncrush
import KvmServer.Codec.Xcrush

/-! # Compressed data PDUs (`libfreerdp/core/rdp.c`, `libfreerdp/codec/bulk.c`) -/

namespace KvmServer.Core
open Lib Codec

structure RdpBulk where
  mppcRecv : MppcContext
  ncrushRecv : NcrushContext
  xcrushRecv : XcrushContext

variable (bulk : RdpBulk)

def bulkDecompress (pSrcData : List UInt8) (flags : Nat) : Int × List UInt8 × RdpBulk :=
  let mppc (level : Nat) :=
    let result := mppcDecompress (mppcSetCompressionLevel bulk.mppcRecv level) pSrcData flags
    (result.status, result.dstData, { bulk with mppcRecv := result.mppc })
  if flags &&& 0xE0 ≠ 0 then
    match flags &&& 0x0F with
    | 0 => mppc 0
    | 1 => mppc 1
    | 2 =>
      let result := ncrushDecompress bulk.ncrushRecv pSrcData flags
      (result.status, result.dstData, { bulk with ncrushRecv := result.ncrush })
    | 3 =>
      let result := xcrushDecompress bulk.xcrushRecv pSrcData flags
      (result.status, result.dstData, { bulk with xcrushRecv := result.xcrush })
    -- `RDP8` and unknown types
    | _ => (-1, [], bulk)
  else (0, pSrcData, bulk)

structure ShareDataHeader where
  (type compressedType compressedLength : Nat)

variable (s : List UInt8)

def rdpReadShareDataHeader : Option (ShareDataHeader × List UInt8) :=
  if s.length < 12 then none
  else some (⟨(s.getD 8 0).toNat, (s.getD 9 0).toNat, leValue ((s.drop 10).take 2)⟩, s.drop 12)

/-- The payload of a compressed PDU; `none`: it is refused. -/
def ShareDataHeader.payload (header : ShareDataHeader) (s : List UInt8) : Option (List UInt8) :=
  if header.compressedLength < 18 then none
  else if s.length < header.compressedLength - 18 then none
  else some (s.take (header.compressedLength - 18))

/-- The type and the body that are handed to the handlers, and the contexts afterwards; `none`:
`STATE_RUN_FAILED`. -/
def rdpRecvDataPdu : Option (Nat × List UInt8) × RdpBulk :=
  match rdpReadShareDataHeader s with
  | none => (none, bulk)
  | some (header, s) =>
    if header.compressedType &&& PACKET_COMPRESSED ≠ 0 then
      match header.payload s with
      | none => (none, bulk)
      | some pSrcData =>
        let (status, pDstData, bulk) := bulkDecompress bulk pSrcData header.compressedType
        -- the status is tested for being other than zero
        if status ≠ 0 then (some (header.type, pDstData), bulk) else (none, bulk)
    else (some (header.type, s), bulk)

def BulkAccepts (pSrcData : List UInt8) (flags : Nat) : Prop :=
  match flags &&& 0x0F with
  | 0 => 0 ≤ (mppcDecompress (mppcSetCompressionLevel bulk.mppcRecv 0) pSrcData flags).status
  | 1 => 0 ≤ (mppcDecompress (mppcSetCompressionLevel bulk.mppcRecv 1) pSrcData flags).status
  | 2 => 0 ≤ (ncrushDecompress bulk.ncrushRecv pSrcData flags).status
  | 3 => 0 ≤ (xcrushDecompress bulk.xcrushRecv pSrcData flags).status
  | _ => False

def CompressedPdu (header : ShareDataHeader) (rest : List UInt8) : Prop :=
  rdpReadShareDataHeader s = some (header, rest) ∧ header.compressedType &&& PACKET_COMPRESSED ≠ 0

def FailureRejected : Prop :=
  ∀ header rest, CompressedPdu s header rest →
    (∀ type body, (rdpRecvDataPdu bulk s).1 = some (type, body) → ∃ pSrcData,
      header.payload rest = some pSrcData ∧
      ∃ status ≥ 0, ∃ bulk',
        bulkDecompress bulk pSrcData header.compressedType = (status, body, bulk')) ∧
    ∀ pSrcData, header.payload rest = some pSrcData →
      (bulkDecompress bulk pSrcData header.compressedType).1 < 0 → (rdpRecvDataPdu bulk s).1 = none

theorem bulkDecompress_accepts {flags : Nat} (compressed : flags &&& PACKET_COMPRESSED ≠ 0)
    (bulk : RdpBulk) (pSrcData : List UInt8) :
    0 ≤ (bulkDecompress bulk pSrcData flags).1 ↔ BulkAccepts bulk pSrcData flags := by
  have flagged : flags &&& 0xE0 ≠ 0 := by
    intro zero
    apply compressed
    rw [PACKET_COMPRESSED, show 0x20 = 0xE0 &&& 0x20 by decide, ← Nat.and_assoc, zero, Nat.zero_and]
  unfold bulkDecompress BulkAccepts
  rw [if_pos flagged]
  split <;> simp

/-- The errors are statuses other than zero: the PDU is handed on, with an empty body. -/
theorem rdpRecvDataPdu_rejects_iff (bulk : RdpBulk) (s : List UInt8) :
    FailureRejected bulk s ↔ ∀ header rest pSrcData, CompressedPdu s header rest →
      header.payload rest = some pSrcData → BulkAccepts bulk pSrcData header.compressedType := by
  have outcome_eq {header rest pSrcData} (pdu : CompressedPdu s header rest)
      (payload : header.payload rest = some pSrcData) :
      (rdpRecvDataPdu bulk s).1 = if (bulkDecompress bulk pSrcData header.compressedType).1 ≠ 0 then
        some (header.type, (bulkDecompress bulk pSrcData header.compressedType).2.1) else none := by
    simp only [rdpRecvDataPdu, pdu.1, if_pos pdu.2, payload]
    split <;> rfl
  constructor
  · intro rejected header rest pSrcData pdu payload
    rw [← bulkDecompress_accepts pdu.2]
    by_contra negative
    have outcome := (rejected header rest pdu).2 pSrcData payload (by omega)
    rw [outcome_eq pdu payload, if_pos (by omega)] at outcome
    cases outcome
  intro accepts header rest pdu
  have status {pSrcData} (payload : header.payload rest = some pSrcData) :=
    (bulkDecompress_accepts pdu.2 bulk pSrcData).mpr (accepts header rest pSrcData pdu payload)
  constructor
  · intro type _ outcome
    cases payload : header.payload rest with
    | none => simp [rdpRecvDataPdu, pdu.1, pdu.2, payload] at outcome
    | some pSrcData =>
      rw [outcome_eq pdu payload] at outcome
      split at outcome <;> cases outcome
      exact ⟨pSrcData, rfl, _, status payload, _, rfl⟩
  intro pSrcData payload _
  have := status payload
  omega

/-- A PDU of type 2 whose compression type is unknown is handed on with an empty body. -/
theorem rdpRecvDataPdu_dispatches_failure :
    ∃ bulk, (rdpRecvDataPdu bulk [0, 0, 0, 0, 0, 0, 18, 0, 2, 0x2F, 18, 0]).1 = some (2, []) ∧
      ¬FailureRejected bulk [0, 0, 0, 0, 0, 0, 18, 0, 2, 0x2F, 18, 0] := by
  refine ⟨⟨mppcContextNew 1 false, ncrushContextBlank false (fun _ => 0) (fun _ => 0),
    xcrushContextNew false⟩, rfl,
    fun rejected => ?_⟩
  cases (rejected _ _ ⟨rfl, by decide⟩).2 _ rfl (by decide : (-1 : Int) < 0)

end KvmServer.Core
