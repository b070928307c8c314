import KvmServer.Crypto.Per

/-! # Slow-path packet headers (`tpkt.c`, `tpdu.c`, `mcs.c`, `rdp.c`)

The length of a packet passes through four headers: TPKT, X.224, the MCS domain PDU and the PER length
of its user data. -/

namespace KvmServer.Core
open Lib Winpr Crypto

def X224_TPDU_DISCONNECT_REQUEST : Nat := 0x80
def X224_TPDU_DATA : Nat := 0xF0
def MCS_BASE_CHANNEL_ID : UInt16 := 1001
def RDP_PACKET_HEADER_MAX_LENGTH : Nat := 15
def SEC_ENCRYPT : Nat := 0x0008

def DomainMCSPDU_DisconnectProviderUltimatum : Nat := 8
def DomainMCSPDU_SendDataRequest : Nat := 25
def DomainMCSPDU_SendDataIndication : Nat := 26

structure RdpContext where
  serverMode : Bool
  fips : Bool
  userId : UInt16

/-! ## Writing -/

def tpktWriteHeader (length : Nat) (s : WStream) : Except Stop WStream := do
  streamCheckCapacity s 4
  let s ← streamWriteBE 1 3 s
  let s ← streamWriteBE 1 0 s
  winprAssert (length ≤ 0xFFFF)
  streamWriteBE 2 length s

def tpduWriteHeader (length code : Nat) (s : WStream) : Except Stop WStream := do
  streamCheckCapacity s 3
  winprAssert (length ≤ 0xFF)
  let s ← streamWriteBE 1 length s
  let s ← streamWriteBE 1 code s
  if code = X224_TPDU_DATA then streamWriteBE 1 0x80 s
  else do
    streamCheckCapacity s 5
    let s ← streamWriteBE 2 0 s
    let s ← streamWriteBE 2 0 s
    streamWriteBE 1 0 s

def tpduWriteData (s : WStream) : Except Stop WStream := tpduWriteHeader 2 X224_TPDU_DATA s

def mcsWriteDomainMcspduHeader (domainMCSPDU length options : Nat) (s : WStream) :
    Except Stop WStream := do
  let s ← tpktWriteHeader length s
  let s ← tpduWriteData s
  perWriteChoice (UInt8.ofNat ((domainMCSPDU <<< 2) ||| options)) s

variable (rdp : RdpContext)

def rdpPaddedLength (length secFlags : Nat) : Nat :=
  if secFlags &&& SEC_ENCRYPT ≠ 0 ∧ rdp.fips then
    let pad := 8 - (length - RDP_PACKET_HEADER_MAX_LENGTH) % 8
    if pad ≠ 8 then length + pad else length
  else length

def rdpWriteHeader (length : Nat) (channelId : UInt16) (secFlags : Nat) (s : WStream) :
    Except Stop WStream := do
  winprAssert (length ≥ RDP_PACKET_HEADER_MAX_LENGTH)
  if length > 0xFFFF then .error .refused
  else do
    let mcspdu :=
      if rdp.serverMode then DomainMCSPDU_SendDataIndication else DomainMCSPDU_SendDataRequest
    let length := rdpPaddedLength rdp length secFlags
    let s ← mcsWriteDomainMcspduHeader mcspdu (length % 2 ^ 16) 0 s
    let s ← perWriteInteger16 rdp.userId MCS_BASE_CHANNEL_ID s
    let s ← perWriteInteger16 channelId 0 s
    let s ← streamEnsureRemainingCapacity s 3
    let s ← streamWriteBE 1 0x70 s
    let userData ← assertingCast 16 ((length - RDP_PACKET_HEADER_MAX_LENGTH) ||| 0x8000)
    streamWriteBE 2 userData s

/-! ## Reading -/

/-- Zero is returned for what is not a TPKT header, and nothing is taken from the stream. -/
def tpktReadHeader (bytes : List UInt8) : Option (Nat × List UInt8) :=
  match bytes with
  | [] => none
  | version :: _ =>
    if version = 3 then
      if bytes.length < 4 then none
      else
        match streamReadBE 2 (bytes.drop 2) with
        | none => none
        | some (len, rest) =>
            if len < 7 then none else if rest.length < len - 4 then none else some (len, rest)
    else some (0, bytes)

def tpduReadHeader (tpktlength : Nat) (bytes : List UInt8) : Option (Nat × List UInt8) :=
  if bytes.length < 3 then none
  else
    match streamReadBE 1 bytes with
    | none => none
    | some (li, bytes) =>
      match streamReadBE 1 bytes with
      | none => none
      | some (code, bytes) =>
        if li + 4 > tpktlength then none
        else if code = X224_TPDU_DATA then some (code, bytes.drop 1)
        else if bytes.length < 5 then none
        else some (code, bytes.drop 5)

inductive RdpHeader where
  | userData (length channelId : Nat)
  | disconnectRequest
  | disconnectUltimatum (reason : Nat)
deriving DecidableEq, Repr

/-- The choice is read once more, for its low bit. -/
def mcsRecvDisconnectProviderUltimatum (choice : Nat) (bytes : List UInt8) :
    Option (RdpHeader × List UInt8) :=
  match streamReadBE 1 bytes with
  | none => none
  | some (b2, bytes) => some (.disconnectUltimatum (((choice &&& 0x01) <<< 1) ||| (b2 >>> 7)), bytes)

def mcsReadSendData (bytes : List UInt8) : Option (RdpHeader × List UInt8) :=
  if bytes.length < 5 then none
  else
    match perReadInteger16 MCS_BASE_CHANNEL_ID bytes with
    | none => none
    | some (_, bytes) =>
      match perReadInteger16 0 bytes with
      | none => none
      | some (channelId, bytes) =>
        match perReadLength (bytes.drop 1) with
        | none => none
        | some (length, bytes) =>
          if bytes.length < length then none else some (.userData length channelId, bytes)

def rdpReadHeader (bytes : List UInt8) : Option (RdpHeader × List UInt8) :=
  let mcspdu := if rdp.serverMode then DomainMCSPDU_SendDataRequest else DomainMCSPDU_SendDataIndication
  match tpktReadHeader bytes with
  | none => none
  | some (length, bytes) =>
    match tpduReadHeader length bytes with
    | none => none
    | some (code, bytes) =>
      if code ≠ X224_TPDU_DATA then
        if code = X224_TPDU_DISCONNECT_REQUEST then some (.disconnectRequest, bytes) else none
      else
        match perReadChoice bytes with
        | none => none
        | some (choice, bytes) =>
          let domainMCSPDU := choice >>> 2
          if domainMCSPDU ≠ mcspdu ∧ domainMCSPDU ≠ DomainMCSPDU_DisconnectProviderUltimatum then none
          else if length < 8 then none
          else if bytes.length < length - 8 then none
          else if domainMCSPDU = DomainMCSPDU_DisconnectProviderUltimatum then
            mcsRecvDisconnectProviderUltimatum choice bytes
          else mcsReadSendData bytes

/-! ## The bytes of a header -/

def tpktBytes (length : Nat) : List UInt8 := [3, 0] ++ beBytes 2 length

def tpduDataBytes : List UInt8 := [2, 0xF0, 0x80]

def mcsHeaderBytes (domainMCSPDU length : Nat) : List UInt8 :=
  tpktBytes length ++ tpduDataBytes ++ beBytes 1 (domainMCSPDU <<< 2)

def rdpHeaderBytes (length : Nat) (channelId : UInt16) : List UInt8 :=
  mcsHeaderBytes
    (if rdp.serverMode then DomainMCSPDU_SendDataIndication else DomainMCSPDU_SendDataRequest)
      length ++
    (beBytes 2 (rdp.userId.toNat - MCS_BASE_CHANNEL_ID.toNat) ++ (beBytes 2 channelId.toNat ++
      ([0x70] ++ beBytes 2 ((length - RDP_PACKET_HEADER_MAX_LENGTH) ||| 0x8000))))

variable {length : Nat} {s s' : WStream}

theorem tpktWriteHeader_ok (res : tpktWriteHeader length s = .ok s') :
    Wrote s s' (tpktBytes length) := by
  simp only [tpktWriteHeader, bind_eq_ok] at res
  obtain ⟨_, _, _, version, _, resv, _, _, written⟩ := res
  exact (streamWriteBE_ok version).2.trans ((streamWriteBE_ok resv).2.trans (streamWriteBE_ok written).2)

theorem tpduWriteData_ok (res : tpduWriteData s = .ok s') : Wrote s s' tpduDataBytes := by
  obtain ⟨_, _, res⟩ := bind_eq_ok.mp res
  obtain ⟨_, _, res⟩ := bind_eq_ok.mp res
  obtain ⟨_, li, res⟩ := bind_eq_ok.mp res
  obtain ⟨_, code, written⟩ := bind_eq_ok.mp res
  exact (streamWriteBE_ok li).2.trans ((streamWriteBE_ok code).2.trans (streamWriteBE_ok written).2)

theorem perWriteChoice_ok {choice : UInt8} (res : perWriteChoice choice s = .ok s') :
    Wrote s s' [choice] := by
  obtain ⟨_, room, written⟩ := bind_eq_ok.mp res
  have wrote := (streamWriteBE_ok written).2
  rw [beBytes_one, UInt8.ofNat_toNat] at wrote
  exact (ensureRemaining_ok room).1.trans wrote

theorem domainHeader_ok {domainMCSPDU : Nat}
    (res : mcsWriteDomainMcspduHeader domainMCSPDU length 0 s = .ok s') :
    Wrote s s' (mcsHeaderBytes domainMCSPDU length) := by
  obtain ⟨_, tpkt, res⟩ := bind_eq_ok.mp res
  obtain ⟨_, tpdu, choice⟩ := bind_eq_ok.mp res
  rw [Nat.or_zero] at choice
  exact ((tpktWriteHeader_ok tpkt).trans (tpduWriteData_ok tpdu)).trans (perWriteChoice_ok choice)

variable {rdp : RdpContext} {channelId : UInt16}

/-- A header is only written for a length and a user that it can carry. -/
theorem rdpWriteHeader_ok {secFlg : Nat}
    (plain : secFlg &&& SEC_ENCRYPT = 0) (res : rdpWriteHeader rdp length channelId secFlg s = .ok s') :
    RDP_PACKET_HEADER_MAX_LENGTH ≤ length ∧ length ≤ 0xFFFF ∧
      MCS_BASE_CHANNEL_ID.toNat ≤ rdp.userId.toNat ∧
      Wrote s s' (rdpHeaderBytes rdp length channelId) := by
  have padded : rdpPaddedLength rdp length secFlg = length := if_neg (fun both => both.1 plain)
  obtain ⟨_, ge, res⟩ := bind_eq_ok.mp res
  have enough : RDP_PACKET_HEADER_MAX_LENGTH ≤ length := by
    unfold winprAssert at ge
    split at ge
    · assumption
    · cases ge
  split at res
  · cases res
  rename_i most
  dsimp only at res
  rw [padded, Nat.mod_eq_of_lt (by omega)] at res
  simp only [bind_eq_ok] at res
  obtain ⟨_, mcs, _, initiator, _, channel, _, room, _, priority, userData, cast, written⟩ := res
  obtain ⟨geUser, wroteUser⟩ := perWriteInteger16_ok initiator
  have wroteChannel := (perWriteInteger16_ok channel).2
  have value : userData = (length - RDP_PACKET_HEADER_MAX_LENGTH) ||| 0x8000 := by
    unfold assertingCast at cast
    split at cast
    · cases cast
      rfl
    · cases cast
  rw [value] at written
  refine ⟨enough, not_lt.mp most, geUser, ?_⟩
  exact (domainHeader_ok mcs).trans (wroteUser.trans (wroteChannel.trans
    ((ensureRemaining_ok room).1.trans
      ((streamWriteBE_ok priority).2.trans (streamWriteBE_ok written).2))))

theorem tpktReadHeader_bytes (ge : 7 ≤ length) (most : length < 2 ^ 16) {rest : List UInt8}
    (room : length - 4 ≤ rest.length) :
    tpktReadHeader (tpktBytes length ++ rest) = some (length, rest) := by
  have read := streamReadBE_beBytes 2 length rest
  rw [Nat.mod_eq_of_lt most] at read
  change (if (3 : UInt8) = 3 then if (tpktBytes length ++ rest).length < 4 then none else
    match streamReadBE 2 (beBytes 2 length ++ rest) with
    | none => none
    | some (len, rest) =>
        if len < 7 then none else if rest.length < len - 4 then none else some (len, rest)
    else some (0, tpktBytes length ++ rest)) = some (length, rest)
  rw [if_pos rfl, read, if_neg (by simp [tpktBytes])]
  dsimp only
  rw [if_neg (by omega), if_neg (by omega)]

theorem tpduReadHeader_data {tpktlength : Nat} (ge : 6 ≤ tpktlength) (rest : List UInt8) :
    tpduReadHeader tpktlength (tpduDataBytes ++ rest) = some (X224_TPDU_DATA, rest) := by
  change (if (tpduDataBytes ++ rest).length < 3 then none else
    if 2 + 4 > tpktlength then none else some (X224_TPDU_DATA, rest)) = _
  rw [if_neg (by simp [tpduDataBytes]), if_neg (by omega)]

theorem mcsReadSendData_bytes {userId channelId : UInt16} (ge : MCS_BASE_CHANNEL_ID.toNat ≤ userId.toNat)
    {userData : Nat} (lt : userData < 2 ^ 16) {body : List UInt8} (length : body.length = userData) :
    mcsReadSendData
    (beBytes 2 (userId.toNat - MCS_BASE_CHANNEL_ID.toNat) ++ (beBytes 2 channelId.toNat ++
        ([0x70] ++ (beBytes 2 (userData ||| 0x8000) ++ body)))) =
          some (.userData (userData % 2 ^ 15) channelId.toNat, body) := by
  have channel := @perReadInteger16_beBytes 0 channelId (Nat.zero_le _)
    ([0x70] ++ (beBytes 2 (userData ||| 0x8000) ++ body))
  rw [UInt16.toNat_zero, Nat.sub_zero] at channel
  rw [mcsReadSendData, if_neg (by simp; omega), perReadInteger16_beBytes ge]
  dsimp only
  rw [channel]
  dsimp only
  rw [List.drop_left' (by rfl), perReadLength_two lt]
  dsimp only
  rw [if_neg (by omega)]

/-- The length is read in fifteen bits. -/
theorem rdpReadHeader_bytes {peer : RdpContext} (other : peer.serverMode = !rdp.serverMode)
    (ge : RDP_PACKET_HEADER_MAX_LENGTH ≤ length) (most : length ≤ 0xFFFF)
    (user : MCS_BASE_CHANNEL_ID.toNat ≤ rdp.userId.toNat) {body : List UInt8}
    (all : body.length = length - RDP_PACKET_HEADER_MAX_LENGTH) :
    rdpReadHeader peer (rdpHeaderBytes rdp length channelId ++ body) =
      some (.userData ((length - RDP_PACKET_HEADER_MAX_LENGTH) % 2 ^ 15) channelId.toNat, body) := by
  have fifteen : RDP_PACKET_HEADER_MAX_LENGTH = 15 := rfl
  have inner := @mcsReadSendData_bytes rdp.userId channelId user
    (length - RDP_PACKET_HEADER_MAX_LENGTH) (by omega) body all
  have split : rdpHeaderBytes rdp length channelId ++ body = tpktBytes length ++
      (tpduDataBytes ++ (beBytes 1 ((if rdp.serverMode then DomainMCSPDU_SendDataIndication
        else DomainMCSPDU_SendDataRequest) <<< 2) ++
      (beBytes 2 (rdp.userId.toNat - MCS_BASE_CHANNEL_ID.toNat) ++ (beBytes 2 channelId.toNat ++
        ([0x70] ++ (beBytes 2 ((length - RDP_PACKET_HEADER_MAX_LENGTH) ||| 0x8000) ++ body)))))) := by
    simp only [rdpHeaderBytes, mcsHeaderBytes, List.append_assoc]
  generalize tailEq :
    beBytes 2 (rdp.userId.toNat - MCS_BASE_CHANNEL_ID.toNat) ++ (beBytes 2 channelId.toNat ++
    ([0x70] ++ (beBytes 2 ((length - RDP_PACKET_HEADER_MAX_LENGTH) ||| 0x8000) ++ body))) =
      tail at split inner
  have tailLen : tail.length = length - 8 := by
    rw [← tailEq]
    simp
    omega
  rw [split, rdpReadHeader, tpktReadHeader_bytes (by omega) (by omega) (by simp [tpduDataBytes]; omega)]
  dsimp only
  rw [tpduReadHeader_data (by omega)]
  dsimp only
  rw [if_neg (not_not.mpr rfl), perReadChoice, streamReadBE_beBytes]
  dsimp only
  rw [if_neg, if_neg (by omega), if_neg (by omega), if_neg]
  · exact inner
  · cases rdp.serverMode <;> decide
  rw [other]
  cases rdp.serverMode <;> decide

/-! ## The round trip -/

/-- Without encryption, the peer reads back channel and user data length of every packet whose header
was written, exactly when the user data is shorter than `2 ^ 15` bytes. -/
theorem rdp_header_roundTrips_iff {rdp peer : RdpContext} (other : peer.serverMode = !rdp.serverMode)
    {length secFlags : Nat} {channelId : UInt16} {s s' : WStream} (plain : secFlags &&& SEC_ENCRYPT = 0)
    (result : rdpWriteHeader rdp length channelId secFlags s = .ok s') :
    ∃ header, Wrote s s' header ∧ ∀ body : List UInt8, header.length + body.length = length →
      (rdpReadHeader peer (header ++ body) = some (.userData body.length channelId.toNat, body) ↔
        body.length < 2 ^ 15) := by
  obtain ⟨ge, most, user, wrote⟩ := rdpWriteHeader_ok plain result
  refine ⟨_, wrote, fun body total => ?_⟩
  have fifteen : (rdpHeaderBytes rdp length channelId).length = RDP_PACKET_HEADER_MAX_LENGTH := by
    simp [rdpHeaderBytes, mcsHeaderBytes, tpktBytes, tpduDataBytes, RDP_PACKET_HEADER_MAX_LENGTH]
  have all : body.length = length - RDP_PACKET_HEADER_MAX_LENGTH := by omega
  rw [rdpReadHeader_bytes other ge most user all, ← all]
  constructor
  · intro same
    have eq := congrArg Prod.fst (Option.some.inj same)
    injection eq with eq
    omega
  intro short
  rw [Nat.mod_eq_of_lt short]

def server : RdpContext := ⟨true, false, 1002⟩
def client : RdpContext := ⟨false, false, 0⟩
def packetStream : WStream := ⟨[], 64, Nat.zero_le 64⟩

/-- A packet of twenty bytes is read back. -/
theorem rdp_header_roundTrips_short : ∃ s', rdpWriteHeader server 20 1003 0 packetStream = .ok s' ∧
      ∃ header, Wrote packetStream s' header ∧ ∀ body : List UInt8, header.length + body.length = 20 →
        (rdpReadHeader client (header ++ body) =
          some (.userData body.length (1003 : UInt16).toNat, body) ↔ body.length < 2 ^ 15) := by
  obtain ⟨s', run⟩ := exists_ok (x := rdpWriteHeader server 20 1003 0 packetStream) (by decide +kernel)
  exact ⟨s', run, rdp_header_roundTrips_iff rfl rfl run⟩

/-- With 32768 bytes of user data the peer is told that there are none. -/
theorem rdp_header_loses_length : ∃ s', rdpWriteHeader server 32783 1003 0 packetStream = .ok s' ∧
      ∀ body : List UInt8, body.length = 32768 →
        rdpReadHeader client (s'.written ++ body) = some (.userData 0 1003, body) := by
  obtain ⟨s', run⟩ :=
    exists_ok (x := rdpWriteHeader server 32783 1003 0 packetStream) (by decide +kernel)
  obtain ⟨ge, most, user, wrote⟩ := rdpWriteHeader_ok rfl run
  refine ⟨s', run, fun body all => ?_⟩
  have written : s'.written = rdpHeaderBytes server 32783 1003 := wrote
  rw [written]
  exact rdpReadHeader_bytes rfl ge most user all

end KvmServer.Core
