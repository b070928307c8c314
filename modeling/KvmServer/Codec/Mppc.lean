import KvmServer.Codec.BitStream

/-! # MPPC bulk compression (`mppc.c`)

The RDP 4.0 (8K history) and RDP 5.0 (64K history) variants.  Pointers into `HistoryBuffer` are
offsets, `pSrcPtr` is the list of bytes from it on, and the if-chains over code ranges are tables
in the order of the source. -/

namespace KvmServer.Codec
open Lib

def PACKET_COMPRESSED : Nat := 0x20
def PACKET_AT_FRONT : Nat := 0x40
def PACKET_FLUSHED : Nat := 0x80

structure MppcContext where
  bs : WBitStream
  compressor : Bool
  (historyPtr historyOffset historyBufferSize : Nat)
  historyBuffer : Mem UInt8
  matchBuffer : Mem Nat
  compressionLevel : Nat

def mppcMatchTable : Array Nat :=
  #[
    0x00000000, 0x009CCF93, 0x01399F26, 0x01D66EB9, 0x02733E4C, 0x03100DDF, 0x03ACDD72, 0x0449AD05,
    0x04E67C98, 0x05834C2B, 0x06201BBE, 0x06BCEB51, 0x0759BAE4, 0x07F68A77, 0x08935A0A, 0x0930299D,
    0x09CCF930, 0x0A69C8C3, 0x0B069856, 0x0BA367E9, 0x0C40377C, 0x0CDD070F, 0x0D79D6A2, 0x0E16A635,
    0x0EB375C8, 0x0F50455B, 0x0FED14EE, 0x1089E481, 0x1126B414, 0x11C383A7, 0x1260533A, 0x12FD22CD,
    0x1399F260, 0x1436C1F3, 0x14D39186, 0x15706119, 0x160D30AC, 0x16AA003F, 0x1746CFD2, 0x17E39F65,
    0x18806EF8, 0x191D3E8B, 0x19BA0E1E, 0x1A56DDB1, 0x1AF3AD44, 0x1B907CD7, 0x1C2D4C6A, 0x1CCA1BFD,
    0x1D66EB90, 0x1E03BB23, 0x1EA08AB6, 0x1F3D5A49, 0x1FDA29DC, 0x2076F96F, 0x2113C902, 0x21B09895,
    0x224D6828, 0x22EA37BB, 0x2387074E, 0x2423D6E1, 0x24C0A674, 0x255D7607, 0x25FA459A, 0x2697152D,
    0x2733E4C0, 0x27D0B453, 0x286D83E6, 0x290A5379, 0x29A7230C, 0x2A43F29F, 0x2AE0C232, 0x2B7D91C5,
    0x2C1A6158, 0x2CB730EB, 0x2D54007E, 0x2DF0D011, 0x2E8D9FA4, 0x2F2A6F37, 0x2FC73ECA, 0x30640E5D,
    0x3100DDF0, 0x319DAD83, 0x323A7D16, 0x32D74CA9, 0x33741C3C, 0x3410EBCF, 0x34ADBB62, 0x354A8AF5,
    0x35E75A88, 0x36842A1B, 0x3720F9AE, 0x37BDC941, 0x385A98D4, 0x38F76867, 0x399437FA, 0x3A31078D,
    0x3ACDD720, 0x3B6AA6B3, 0x3C077646, 0x3CA445D9, 0x3D41156C, 0x3DDDE4FF, 0x3E7AB492, 0x3F178425,
    0x3FB453B8, 0x4051234B, 0x40EDF2DE, 0x418AC271, 0x42279204, 0x42C46197, 0x4361312A, 0x43FE00BD,
    0x449AD050, 0x45379FE3, 0x45D46F76, 0x46713F09, 0x470E0E9C, 0x47AADE2F, 0x4847ADC2, 0x48E47D55,
    0x49814CE8, 0x4A1E1C7B, 0x4ABAEC0E, 0x4B57BBA1, 0x4BF48B34, 0x4C915AC7, 0x4D2E2A5A, 0x4DCAF9ED,
    0x4E67C980, 0x4F049913, 0x4FA168A6, 0x503E3839, 0x50DB07CC, 0x5177D75F, 0x5214A6F2, 0x52B17685,
    0x534E4618, 0x53EB15AB, 0x5487E53E, 0x5524B4D1, 0x55C18464, 0x565E53F7, 0x56FB238A, 0x5797F31D,
    0x5834C2B0, 0x58D19243, 0x596E61D6, 0x5A0B3169, 0x5AA800FC, 0x5B44D08F, 0x5BE1A022, 0x5C7E6FB5,
    0x5D1B3F48, 0x5DB80EDB, 0x5E54DE6E, 0x5EF1AE01, 0x5F8E7D94, 0x602B4D27, 0x60C81CBA, 0x6164EC4D,
    0x6201BBE0, 0x629E8B73, 0x633B5B06, 0x63D82A99, 0x6474FA2C, 0x6511C9BF, 0x65AE9952, 0x664B68E5,
    0x66E83878, 0x6785080B, 0x6821D79E, 0x68BEA731, 0x695B76C4, 0x69F84657, 0x6A9515EA, 0x6B31E57D,
    0x6BCEB510, 0x6C6B84A3, 0x6D085436, 0x6DA523C9, 0x6E41F35C, 0x6EDEC2EF, 0x6F7B9282, 0x70186215,
    0x70B531A8, 0x7152013B, 0x71EED0CE, 0x728BA061, 0x73286FF4, 0x73C53F87, 0x74620F1A, 0x74FEDEAD,
    0x759BAE40, 0x76387DD3, 0x76D54D66, 0x77721CF9, 0x780EEC8C, 0x78ABBC1F, 0x79488BB2, 0x79E55B45,
    0x7A822AD8, 0x7B1EFA6B, 0x7BBBC9FE, 0x7C589991, 0x7CF56924, 0x7D9238B7, 0x7E2F084A, 0x7ECBD7DD,
    0x7F68A770, 0x80057703, 0x80A24696, 0x813F1629, 0x81DBE5BC, 0x8278B54F, 0x831584E2, 0x83B25475,
    0x844F2408, 0x84EBF39B, 0x8588C32E, 0x862592C1, 0x86C26254, 0x875F31E7, 0x87FC017A, 0x8898D10D,
    0x8935A0A0, 0x89D27033, 0x8A6F3FC6, 0x8B0C0F59, 0x8BA8DEEC, 0x8C45AE7F, 0x8CE27E12, 0x8D7F4DA5,
    0x8E1C1D38, 0x8EB8ECCB, 0x8F55BC5E, 0x8FF28BF1, 0x908F5B84, 0x912C2B17, 0x91C8FAAA, 0x9265CA3D,
    0x930299D0, 0x939F6963, 0x943C38F6, 0x94D90889, 0x9575D81C, 0x9612A7AF, 0x96AF7742, 0x974C46D5,
    0x97E91668, 0x9885E5FB, 0x9922B58E, 0x99BF8521, 0x9A5C54B4, 0x9AF92447, 0x9B95F3DA, 0x9C32C36D]

/-- `MPPC_MATCH_INDEX` in 32-bit arithmetic. -/
def mppcMatchIndex (sym1 sym2 sym3 : UInt8) : Nat :=
  let entry := fun (sym : UInt8) => mppcMatchTable.getD sym.toNat 0
  (((entry sym3 <<< 16 + entry sym2 <<< 8 + entry sym1) % 2 ^ 32) &&& 0x07FFF000) >>> 12

/-! ## Context -/

variable (mppc : MppcContext)

def mppcContextReset (flush : Bool) : MppcContext :=
  let mppc := { mppc with
    historyBuffer := zeroMemory 65536 mppc.historyBuffer
    matchBuffer := zeroMemory 32768 mppc.matchBuffer }
  if flush then { mppc with historyOffset := mppc.historyBufferSize + 1, historyPtr := 0 }
  else { mppc with historyOffset := 0, historyPtr := 0 }

variable (compressionLevel : Nat)

def mppcSetCompressionLevel : MppcContext :=
  if compressionLevel < 1 then { mppc with compressionLevel := 0, historyBufferSize := 8192 }
  else { mppc with compressionLevel := 1, historyBufferSize := 65536 }

def mppcContextNew (compressor : Bool) : MppcContext :=
  let mppc : MppcContext :=
    { bs := bitStreamNew, compressor := compressor, historyPtr := 0, historyOffset := 0,
      historyBufferSize := 0, historyBuffer := ⟨fun _ => 0⟩, matchBuffer := ⟨fun _ => 0⟩,
      compressionLevel := 0 }
  mppcContextReset (mppcSetCompressionLevel mppc compressionLevel) false

/-! ## Code tables -/

/-- `if ((accumulator & mask) == pattern)` then the value is `((accumulator >> shift) & low) + base`
and `nbits` bits are consumed. -/
structure DecodeRow where
  (mask pattern shift low base nbits : Nat)

def readRow (rows : List DecodeRow) (bs : WBitStream) : Option (Nat × WBitStream) :=
  match rows.find? (fun row => bs.accumulator &&& row.mask == row.pattern) with
  | some row =>
    some ((bs.accumulator >>> row.shift &&& row.low) + row.base, bitStreamShift bs row.nbits)
  | none => none

/-- For `lo ≤ value < hi` the bits are `code | ((value - sub) & low)`, `nbits` of them. -/
structure EncodeRow where
  (lo hi code sub low nbits : Nat)

/-- A value outside all ranges writes nothing, as in the source. -/
def writeRow (rows : List EncodeRow) (bs : WBitStream) (value : Nat) : WBitStream :=
  match rows.find? (fun row => row.lo ≤ value ∧ value < row.hi) with
  | some row => bitStreamWriteBits bs (row.code ||| ((value - row.sub) &&& row.low)) row.nbits
  | none => bs

def copyOffsetDecodeRows : List DecodeRow :=
  if compressionLevel ≠ 0 then
    [⟨0xF8000000, 0xF8000000, 21, 0x3F, 0, 11⟩,
     ⟨0xF8000000, 0xF0000000, 19, 0xFF, 64, 13⟩,
     ⟨0xF0000000, 0xE0000000, 17, 0x7FF, 320, 15⟩,
     ⟨0xE0000000, 0xC0000000, 13, 0xFFFF, 2368, 19⟩]
  else
    [⟨0xF0000000, 0xF0000000, 22, 0x3F, 0, 10⟩,
     ⟨0xF0000000, 0xE0000000, 20, 0xFF, 64, 12⟩,
     ⟨0xE0000000, 0xC0000000, 16, 0x1FFF, 320, 16⟩]

def copyOffsetEncodeRows : List EncodeRow :=
  if compressionLevel ≠ 0 then
    [⟨0, 64, 0x07C0, 0, 0x003F, 11⟩,
     ⟨64, 320, 0x1E00, 64, 0x00FF, 13⟩,
     ⟨320, 2368, 0x7000, 320, 0x07FF, 15⟩,
     ⟨2368, 2 ^ 32, 0x060000, 2368, 0xFFFF, 19⟩]
  else
    [⟨0, 64, 0x03C0, 0, 0x003F, 10⟩,
     ⟨64, 320, 0x0E00, 64, 0x00FF, 12⟩,
     ⟨320, 8192, 0xC000, 320, 0x1FFF, 16⟩]

def lengthOfMatchDecodeRows : List DecodeRow :=
  [⟨0x80000000, 0x00000000, 0, 0, 3, 1⟩,
   ⟨0xC0000000, 0x80000000, 28, 0x0003, 0x0004, 4⟩,
   ⟨0xE0000000, 0xC0000000, 26, 0x0007, 0x0008, 6⟩,
   ⟨0xF0000000, 0xE0000000, 24, 0x000F, 0x0010, 8⟩,
   ⟨0xF8000000, 0xF0000000, 22, 0x001F, 0x0020, 10⟩,
   ⟨0xFC000000, 0xF8000000, 20, 0x003F, 0x0040, 12⟩,
   ⟨0xFE000000, 0xFC000000, 18, 0x007F, 0x0080, 14⟩,
   ⟨0xFF000000, 0xFE000000, 16, 0x00FF, 0x0100, 16⟩,
   ⟨0xFF800000, 0xFF000000, 14, 0x01FF, 0x0200, 18⟩,
   ⟨0xFFC00000, 0xFF800000, 12, 0x03FF, 0x0400, 20⟩,
   ⟨0xFFE00000, 0xFFC00000, 10, 0x07FF, 0x0800, 22⟩,
   ⟨0xFFF00000, 0xFFE00000, 8, 0x0FFF, 0x1000, 24⟩] ++
  if compressionLevel ≠ 0 then
    [⟨0xFFF80000, 0xFFF00000, 6, 0x1FFF, 0x2000, 26⟩,
     ⟨0xFFFC0000, 0xFFF80000, 4, 0x3FFF, 0x4000, 28⟩,
     ⟨0xFFFE0000, 0xFFFC0000, 2, 0x7FFF, 0x8000, 30⟩]
  else []

def lengthOfMatchEncodeRows : List EncodeRow :=
  [⟨3, 4, 0, 0, 0, 1⟩,
   ⟨4, 8, 0x0008, 0, 0x0003, 4⟩,
   ⟨8, 16, 0x0030, 0, 0x0007, 6⟩,
   ⟨16, 32, 0x00E0, 0, 0x000F, 8⟩,
   ⟨32, 64, 0x03C0, 0, 0x001F, 10⟩,
   ⟨64, 128, 0x0F80, 0, 0x003F, 12⟩,
   ⟨128, 256, 0x3F00, 0, 0x007F, 14⟩,
   ⟨256, 512, 0xFE00, 0, 0x00FF, 16⟩,
   ⟨512, 1024, 0x3FC00, 0, 0x01FF, 18⟩,
   ⟨1024, 2048, 0xFF800, 0, 0x03FF, 20⟩,
   ⟨2048, 4096, 0x3FF000, 0, 0x07FF, 22⟩,
   ⟨4096, 8192, 0xFFE000, 0, 0x0FFF, 24⟩] ++
  if compressionLevel ≠ 0 then
    [⟨8192, 16384, 0x3FFC000, 0, 0x1FFF, 26⟩,
     ⟨16384, 32768, 0xFFF8000, 0, 0x3FFF, 28⟩,
     ⟨32768, 65536, 0x3FFF0000, 0, 0x7FFF, 30⟩]
  else []

/-! ## `mppc_decompress` -/

structure MppcDecoder where
  bs : WBitStream
  historyBuffer : Mem UInt8
  historyPtr : Nat

def mppcDecompressStep (compressionLevel historyBufferSize : Nat) (s : MppcDecoder) :
    Except (Int × WBitStream) MppcDecoder :=
  let accumulator := s.bs.accumulator
  let historyBufferEnd := historyBufferSize - 1
  if s.historyPtr > historyBufferEnd then .error (-1004, s.bs)
  else if accumulator &&& 0x80000000 = 0x00000000 then
    let literal := (accumulator &&& 0x7F000000) >>> 24
    .ok { bs := bitStreamShift s.bs 8
          historyBuffer := store s.historyBuffer s.historyPtr (UInt8.ofNat literal)
          historyPtr := s.historyPtr + 1 }
  else if accumulator &&& 0xC0000000 = 0x80000000 then
    let literal := ((accumulator &&& 0x3F800000) >>> 23) + 0x80
    .ok { bs := bitStreamShift s.bs 9
          historyBuffer := store s.historyBuffer s.historyPtr (UInt8.ofNat literal)
          historyPtr := s.historyPtr + 1 }
  else
    match readRow (copyOffsetDecodeRows compressionLevel) s.bs with
    | none => .error (if compressionLevel ≠ 0 then -1001 else -1002, s.bs)
    | some (copyOffset, bs) =>
      match readRow (lengthOfMatchDecodeRows compressionLevel) bs with
      | none => .error (-1003, bs)
      | some (lengthOfMatch, bs) =>
        if s.historyPtr + lengthOfMatch - 1 > historyBufferEnd then .error (-1005, bs)
        else
          -- the pointer difference is a signed 64-bit number, masked to the history size
          let srcPtr := (s.historyPtr + 2 ^ 64 - copyOffset) &&&
            (if compressionLevel ≠ 0 then 0xFFFF else 0x1FFF)
          .ok { bs := bs
                historyBuffer := lzCopy s.historyBuffer s.historyPtr srcPtr lengthOfMatch
                historyPtr := s.historyPtr + lengthOfMatch }

/-- `while ((bs->length - bs->position) >= 8)`.  Every round moves `HistoryPtr` and fails once it is
past the history, so `HistoryBufferSize + 1` rounds are always enough. -/
def mppcDecompressLoop (compressionLevel historyBufferSize : Nat) : Nat → MppcDecoder → MppcDecoder × Int
  | 0, s => (s, -1004)
  | fuel + 1, s =>
    if 8 ≤ sub32 s.bs.length s.bs.position then
      match mppcDecompressStep compressionLevel historyBufferSize s with
      | .error (code, bs) => ({ s with bs := bs }, code)
      | .ok s' => mppcDecompressLoop compressionLevel historyBufferSize fuel s'
    else (s, 1)

structure MppcDecompressed where
  mppc : MppcContext
  status : Int
  dstData : List UInt8

def mppcApplyFlags (flags : Nat) : MppcContext :=
  let mppc :=
    if flags &&& PACKET_AT_FRONT ≠ 0 then { mppc with historyOffset := 0, historyPtr := 0 } else mppc
  if flags &&& PACKET_FLUSHED ≠ 0 then
    { mppc with
      historyOffset := 0
      historyPtr := 0
      historyBuffer := zeroMemory mppc.historyBufferSize mppc.historyBuffer }
  else mppc

def mppcDecompressHistory : MppcDecompressed :=
  let result := mppcDecompressLoop mppc.compressionLevel mppc.historyBufferSize
    (mppc.historyBufferSize + 1) ⟨mppc.bs, mppc.historyBuffer, mppc.historyPtr⟩
  if result.2 = 1 then
    { mppc := { mppc with
        bs := result.1.bs
        historyBuffer := result.1.historyBuffer
        historyPtr := result.1.historyPtr }
      status := 1
      dstData := block result.1.historyBuffer mppc.historyPtr (result.1.historyPtr - mppc.historyPtr) }
  else
    { mppc := { mppc with bs := result.1.bs, historyBuffer := result.1.historyBuffer }
      status := result.2
      dstData := [] }

variable (pSrcData : List UInt8)

def mppcDecompress (flags : Nat) : MppcDecompressed :=
  let bs := bitStreamFetch (bitStreamAttach mppc.bs (listMem 0 pSrcData) pSrcData.length)
  let mppc := mppcApplyFlags { mppc with bs := bs } flags
  if flags &&& PACKET_COMPRESSED = 0 then { mppc := mppc, status := 1, dstData := pSrcData }
  else mppcDecompressHistory mppc

/-! ## `mppc_compress` -/

structure MppcEncoder where
  mppc : MppcContext
  historyPtr : Nat
  pSrcPtr : List UInt8

/-- Literals below 0x80 take 8 bits, the others `10` and their lower 7 bits. -/
def writeLiteral (bs : WBitStream) (sym : UInt8) : WBitStream :=
  let accumulator := sym.toNat
  if accumulator < 0x80 then bitStreamWriteBits bs accumulator 8
  else bitStreamWriteBits bs (0x100 ||| (accumulator &&& 0x7F)) 9

/-- `while ((*pSrcPtr == *MatchPtr) && (pSrcPtr < pSrcEnd) && (MatchPtr <= mppc->HistoryPtr))`: the
last byte of the packet never joins a match. -/
def extendMatch (limit : Nat) (historyBuffer : Mem UInt8) (matchPtr historyPtr lengthOfMatch : Nat) :
    List UInt8 → Mem UInt8 × Nat × List UInt8
  | c :: next :: src =>
    if c = historyBuffer matchPtr ∧ matchPtr ≤ limit then
      extendMatch limit (store historyBuffer historyPtr c) (matchPtr + 1) (historyPtr + 1)
        (lengthOfMatch + 1) (next :: src)
    else (historyBuffer, lengthOfMatch, c :: next :: src)
  | src => (historyBuffer, lengthOfMatch, src)

/-- One round of the main loop.  When the output would not fit, the round ends with the context that
is then reset. -/
def mppcCompressStep (dstSize : Nat) (s : MppcEncoder) : Except MppcContext MppcEncoder :=
  match s.pSrcPtr with
  | sym1 :: sym2 :: sym3 :: src =>
    let historyBuffer := store s.mppc.historyBuffer s.historyPtr sym1
    let historyPtr := s.historyPtr + 1
    let matchIndex := mppcMatchIndex sym1 sym2 sym3
    let matchPtr := s.mppc.matchBuffer matchIndex
    let matchBuffer :=
      if matchPtr ≠ historyPtr - 1 then store s.mppc.matchBuffer matchIndex (historyPtr % 2 ^ 16)
      else s.mppc.matchBuffer
    let mppc := { s.mppc with
      historyBuffer := historyBuffer
      matchBuffer := matchBuffer
      historyPtr := if s.mppc.historyPtr < historyPtr then historyPtr else s.mppc.historyPtr }
    -- for `matchPtr = 0` the byte before it is never looked at: the fifth test rejects the match
    if sym1 ≠ historyBuffer (matchPtr - 1) ∨ sym2 ≠ historyBuffer matchPtr ∨
        sym3 ≠ historyBuffer (matchPtr + 1) ∨ matchPtr + 1 > mppc.historyPtr ∨ matchPtr = 0 ∨
        matchPtr = historyPtr - 1 ∨ matchPtr = historyPtr then
      if mppc.bs.position / 8 + 2 > sub32 dstSize 1 then .error mppc
      else .ok
        { mppc := { mppc with bs := writeLiteral mppc.bs sym1 }
          historyPtr := historyPtr
          pSrcPtr := sym2 :: sym3 :: src }
    else
      -- (HistoryBufferSize - 1) & (HistoryPtr - MatchPtr) on a signed pointer difference
      let copyOffset := (mppc.historyBufferSize - 1) &&& (historyPtr + 2 ^ 64 - matchPtr)
      let historyBuffer := store (store historyBuffer historyPtr sym2) (historyPtr + 1) sym3
      let (historyBuffer, lengthOfMatch, rest) :=
        extendMatch mppc.historyPtr historyBuffer (matchPtr + 2) (historyPtr + 2) 3 src
      let mppc := { mppc with historyBuffer := historyBuffer }
      if mppc.bs.position / 8 + 7 > sub32 dstSize 1 then .error mppc
      else
        let bs := writeRow (copyOffsetEncodeRows mppc.compressionLevel) mppc.bs copyOffset
        let bs := writeRow (lengthOfMatchEncodeRows mppc.compressionLevel) bs lengthOfMatch
        .ok
          { mppc := { mppc with bs := bs }
            historyPtr := historyPtr + 2 + (lengthOfMatch - 3)
            pSrcPtr := rest }
  | _ => .ok s

/-- `while (pSrcPtr < (pSrcEnd - 2))`: at least four bytes are left.  Every round consumes one, so
the packet size bounds the rounds. -/
def mppcCompressLoop (dstSize : Nat) : Nat → MppcEncoder → Except MppcContext MppcEncoder
  | 0, s => .ok s
  | fuel + 1, s =>
    if 3 < s.pSrcPtr.length then
      match mppcCompressStep dstSize s with
      | .error mppc => .error mppc
      | .ok s' => mppcCompressLoop dstSize fuel s'
    else .ok s

def mppcCompressTail (dstSize : Nat) (mppc : MppcContext) (historyPtr : Nat) :
    List UInt8 → Except MppcContext (MppcContext × Nat)
  | [] => .ok (mppc, historyPtr)
  | sym :: src =>
    if mppc.bs.position / 8 + 2 > sub32 dstSize 1 then .error mppc
    else
      mppcCompressTail dstSize
        { mppc with
          bs := writeLiteral mppc.bs sym
          historyBuffer := store mppc.historyBuffer historyPtr sym } (historyPtr + 1) src

structure MppcCompressed where
  mppc : MppcContext
  status : Int
  dstData : List UInt8
  flags : Nat

def mppcFlushed : MppcCompressed :=
  { mppc := mppcContextReset mppc true
    status := 1
    dstData := pSrcData
    flags := PACKET_FLUSHED ||| mppc.compressionLevel }

/-- `((HistoryOffset + SrcSize) < (HistoryBufferSize - 3)) && HistoryOffset`: the packet is appended
to the history instead of starting over at its front. -/
def Appends : Prop :=
  mppc.historyOffset + pSrcData.length < mppc.historyBufferSize - 3 ∧ mppc.historyOffset ≠ 0

instance (mppc : MppcContext) (pSrcData : List UInt8) : Decidable (Appends mppc pSrcData) :=
  inferInstanceAs (Decidable (_ ∧ _))

def mppcCompress (pDstBuffer : Mem UInt8) (pDstSize : Nat) : MppcCompressed :=
  let srcSize := pSrcData.length
  let packetAtFront := ¬Appends mppc pSrcData
  let packetFlushed := ¬Appends mppc pSrcData ∧ mppc.historyOffset = mppc.historyBufferSize + 1
  let historyOffset := if Appends mppc pSrcData then mppc.historyOffset else 0
  let dstSize := if pDstSize > srcSize then srcSize else pDstSize
  let mppc := { mppc with bs := bitStreamAttach mppc.bs pDstBuffer dstSize }
  match mppcCompressLoop dstSize srcSize
      { mppc := mppc, historyPtr := historyOffset, pSrcPtr := pSrcData } with
  | .error mppc => mppcFlushed mppc pSrcData
  | .ok s =>
    match mppcCompressTail dstSize s.mppc s.historyPtr s.pSrcPtr with
    | .error mppc => mppcFlushed mppc pSrcData
    | .ok (mppc, historyPtr) =>
      let bs := bitStreamFlush mppc.bs
      let flags := PACKET_COMPRESSED ||| mppc.compressionLevel |||
        (if packetAtFront then PACKET_AT_FRONT else 0) |||
        (if packetFlushed then PACKET_FLUSHED else 0)
      let mppc := { mppc with bs := bs, historyPtr := historyPtr }
      let dstData := block bs.buffer 0 ((bs.position + 7) / 8)
      if historyPtr > 0xFFFFFFFF then
        { mppc := mppc, status := -1, dstData := dstData, flags := flags }
      else
        { mppc := { mppc with historyOffset := historyPtr }
          status := 1
          dstData := dstData
          flags := flags }

end KvmServer.Codec
