import KvmServer.Core.DrdynvcServer
import KvmServer.Lib.Session

/-! # What is read of a PDU

The parser asks the stream for the fields of a header, and the stream answers for its buffer and
not for the PDU. So it reads on behind a PDU that is too short for its own header. -/

namespace KvmServer.Core
open Lib Winpr List

def ChunkRead.Confined (read : ChunkRead) : Prop :=
  ∀ span ∈ read.spans, span.start + span.length ≤ read.pduLength

def HasChannelId (cmd : DynamicChannelPdu) : Prop :=
  cmd ≠ .capabilityRequest ∧ cmd ≠ .softSyncRequest ∧ cmd ≠ .softSyncResponse

/-- The PDU has the fields of its header, or the stream has no room for them.  A PDU with the first
data of an open channel has two of them. -/
def PduCovered (vcm : VirtualChannelManager) (capacity : Nat) : List UInt8 → Prop
  | [] => True
  | value :: rest =>
    vcm.ready = true → HasChannelId (pduCmd value) →
      ∀ width, variableWidth (pduCbChId value) = some width → 1 + width ≤ capacity →
        width ≤ rest.length ∧
          ∀ dvc, vcm.dynamicVirtualChannels (leValue (rest.take width)) = some dvc →
            pduCmd value = .dataFirst → dvc.dvcOpenState = .succeeded →
              ∀ lengthWidth, variableWidth (pduSp value) = some lengthWidth →
                1 + width + lengthWidth ≤ capacity →
                width + lengthWidth ≤ rest.length

def ReceiveData.pdu (receiveData : ReceiveData) : List UInt8 :=
    receiveData.buffer.take receiveData.position

def ChunkCovered (server : DrdynvcServer) (chunk : ChannelChunk) : Prop :=
  chunk.last = true →
    PduCovered server.vcm (receiveChunk server.receiveData chunk).buffer.length
      (receiveChunk server.receiveData chunk).pdu

theorem ReceiveData.pdu_length (receiveData : ReceiveData) :
    receiveData.pdu.length = receiveData.position := by
  rw [ReceiveData.pdu, length_take, min_eq_left receiveData.inside]

variable {cbLen width pos : Nat} {buffer : List UInt8} (channel : PeerChannel)

theorem variableWidth_pos (known : variableWidth cbLen = some width) : 0 < width ∧ width ≤ 4 := by
  unfold variableWidth at known
  split at known <;> cases known <;> decide

theorem serverReadVariableUint_of_le (known : variableWidth cbLen = some width)
    (room : pos + width ≤ buffer.length) :
    wtsReadVariableUint buffer pos cbLen = some (leValue ((buffer.drop pos).take width), width) := by
  rw [wtsReadVariableUint, known]
  exact if_neg (by omega)

theorem serverReadVariableUint_eq_some {value : Nat}
    (read : wtsReadVariableUint buffer pos cbLen = some (value, width)) :
    variableWidth cbLen = some width ∧ pos + width ≤ buffer.length ∧
    value = leValue ((buffer.drop pos).take width) := by
  cases known : variableWidth cbLen with
  | none =>
    rw [wtsReadVariableUint, known] at read
    cases read
  | some _ =>
    have positive := variableWidth_pos known
    rw [wtsReadVariableUint, known] at read
    simp only at read
    split at read
    · cases read
    · cases read
      exact ⟨rfl, by omega, rfl⟩

/-! ## One channel -/

def SpansWithin (spans : List Span) (limit : Nat) : Prop :=
    ∀ span ∈ spans, span.start + span.length ≤ limit

theorem SpansWithin.nil (limit : Nat) : SpansWithin [] limit := fun _ mem => absurd mem not_mem_nil

theorem spansWithin_cons {span : Span} {spans : List Span} {limit : Nat} :
    SpansWithin (span :: spans) limit ↔ span.start + span.length ≤ limit ∧ SpansWithin spans limit :=
  forall_mem_cons

theorem readCreateResponse_within (dvcCreationStat : Nat → Nat → Bool) (channel : PeerChannel)
    (buffer : List UInt8) (pos length : Nat) :
    SpansWithin (wtsReadDrdynvcCreateResponse dvcCreationStat channel buffer pos length).spans
    (pos + length) := by
  unfold wtsReadDrdynvcCreateResponse
  by_cases short : length < 4
  · rw [if_pos short]
    exact .nil _
  rw [if_neg short]
  by_cases fin : buffer.length - pos < 4
  · rw [if_pos fin]
    exact .nil _
  rw [if_neg fin]
  exact spansWithin_cons.mpr ⟨by simp only; omega, .nil _⟩

theorem readData_within (buffer : List UInt8) (pos length : Nat) :
    SpansWithin (wtsReadDrdynvcData channel buffer pos length).spans (pos + length) := by
  have taken : SpansWithin [⟨pos, length⟩] (pos + length) := spansWithin_cons.mpr ⟨le_rfl, .nil _⟩
  unfold wtsReadDrdynvcData
  simp only
  split
  · split
    · exact .nil _
    split
    · split
      · exact taken
      · exact taken
    · exact .nil _
  · exact taken

theorem storeDataFirst_within (buffer : List UInt8) (pos length : Nat) :
    SpansWithin (wtsStoreDataFirst channel buffer pos length).spans (pos + length) := by
  unfold wtsStoreDataFirst
  simp only
  split
  · exact .nil _
  split
  · exact spansWithin_cons.mpr ⟨le_rfl, .nil _⟩
  · exact .nil _

variable {length : Nat} {cmd : DynamicChannelPdu} {vcm : VirtualChannelManager}

theorem readDataFirst_within {channel : PeerChannel} :
    SpansWithin (wtsReadDrdynvcDataFirst channel buffer pos cbLen length).spans (pos + length) ↔
      ∀ width, variableWidth cbLen = some width → pos + width ≤ buffer.length → width ≤ length := by
  constructor
  · intro within width known room
    rw [wtsReadDrdynvcDataFirst, serverReadVariableUint_of_le known room] at within
    have fst := (spansWithin_cons.mp within).1
    simp only at fst
    omega
  intro fits
  unfold wtsReadDrdynvcDataFirst
  cases read : wtsReadVariableUint buffer pos cbLen with
  | none => exact .nil _
  | some got =>
    obtain ⟨total, width⟩ := got
    obtain ⟨known, room, -⟩ := serverReadVariableUint_eq_some read
    have short := fits width known room
    have rest :=
      storeDataFirst_within { channel with dvcTotalLength := total } buffer (pos + width) (length - width)
    simp only [if_neg (by omega : ¬width > length)]
    apply spansWithin_cons.mpr
    constructor
    · simp only
      omega
    rw [show pos + length = pos + width + (length - width) by omega]
    exact rest

theorem readChannel_other (other : cmd ≠ .dataFirst)
    (vcm : VirtualChannelManager) (dvc : PeerChannel) (buffer : List UInt8) (pos spent length : Nat) :
    SpansWithin (wtsReadDrdynvcChannel vcm dvc cmd buffer pos spent length).spans (pos + length) := by
  cases cmd with
  | dataFirst => exact absurd rfl other
  | createRequest => exact readCreateResponse_within _ _ _ _ _
  | data =>
    rw [wtsReadDrdynvcChannel]
    split
    · exact .nil _
    · exact readData_within dvc buffer pos length
  | _ => exact .nil _

theorem readChannel_within {dvc : PeerChannel} {spent : Nat} :
    SpansWithin (wtsReadDrdynvcChannel vcm dvc cmd buffer pos spent length).spans (pos + length) ↔
      (cmd = .dataFirst → dvc.dvcOpenState = .succeeded →
        ∀ width, variableWidth spent = some width → pos + width ≤ buffer.length → width ≤ length) := by
  by_cases fst : cmd = .dataFirst
  · subst fst
    rw [wtsReadDrdynvcChannel]
    by_cases opened : dvc.dvcOpenState = .succeeded
    · rw [if_neg (fun closed => closed opened), readDataFirst_within]
      exact ⟨fun fits _ _ => fits, fun fits => fits rfl opened⟩
    rw [if_pos opened]
    exact ⟨fun _ _ yes => absurd yes opened, fun _ => .nil _⟩
  · exact ⟨fun _ yes => absurd yes fst, fun _ => readChannel_other fst vcm dvc buffer pos spent length⟩

/-! ## One PDU -/

theorem lengthLeft_eq {position : Nat} (fits : 1 + width ≤ position) (le : position ≤ UINT32_MAX) :
    (position - 1 + 2 ^ 64 - width) % 2 ^ 64 % 2 ^ 32 = position - (1 + width) := by
  unfold UINT32_MAX at le
  omega

theorem PduCovered.of_long {cap : Nat} {pdu : List UInt8} (long : 9 ≤ pdu.length) :
    PduCovered vcm cap pdu := by
  cases pdu with
  | nil => trivial
  | cons _ _ =>
    intro _ _ _ known _
    have narrow := variableWidth_pos known
    rw [length_cons] at long
    refine ⟨by omega, ?_⟩
    intro _ _ _ _ _ knownLen _
    have narLen := variableWidth_pos knownLen
    omega

section Pdu
variable {vcm : VirtualChannelManager} {recvData : ReceiveData} {val : UInt8} {rest : List UInt8}

section
variable (pdu : recvData.pdu = val :: rest)
include pdu

theorem ReceiveData.buffer_eq :
    recvData.buffer = val :: (rest ++ recvData.buffer.drop recvData.position) := by
  rw [← cons_append, ← pdu, ReceiveData.pdu, take_append_drop]

theorem ReceiveData.take_channelId (fits : width ≤ rest.length) :
    (recvData.buffer.drop 1).take width = rest.take width := by
  rw [recvData.buffer_eq pdu, drop_succ_cons, drop_zero, take_append_of_le_length fits]

theorem readChannel_covered_iff (le : recvData.position ≤ UINT32_MAX)
    (fits : width ≤ rest.length) (dvc : PeerChannel) :
    SpansWithin (wtsReadDrdynvcChannel vcm dvc (pduCmd val) recvData.buffer (1 + width)
        (pduSp val) ((recvData.position - 1 + 2 ^ 64 - width) % 2 ^ 64 % 2 ^ 32)).spans
          recvData.position ↔ (pduCmd val = .dataFirst → dvc.dvcOpenState = .succeeded →
        ∀ lengthWidth, variableWidth (pduSp val) = some lengthWidth →
          1 + width + lengthWidth ≤ recvData.buffer.length → width + lengthWidth ≤ rest.length) := by
  have length := recvData.pdu_length
  rw [pdu, length_cons] at length
  have limit : recvData.position = 1 + width + (recvData.position - (1 + width)) := by omega
  have same : ∀ lengthWidth, lengthWidth ≤ recvData.position - (1 + width) ↔
      width + lengthWidth ≤ rest.length := by
    omega
  rw [lengthLeft_eq (by omega : 1 + width ≤ recvData.position) le]
  nth_rewrite 2 [limit]
  rw [readChannel_within]
  simp only [same]

theorem readChannelPdu_within_iff (le : recvData.position ≤ UINT32_MAX) :
    SpansWithin
    (wtsReadDrdynvcChannelPdu vcm recvData val (recvData.position - 1)).spans recvData.position ↔
      ∀ width, variableWidth (pduCbChId val) = some width → 1 + width ≤ recvData.buffer.length →
        width ≤ rest.length ∧ ∀ dvc, vcm.dynamicVirtualChannels (leValue (rest.take width)) = some dvc →
            pduCmd val = .dataFirst → dvc.dvcOpenState = .succeeded →
              ∀ lengthWidth, variableWidth (pduSp val) = some lengthWidth →
                1 + width + lengthWidth ≤ recvData.buffer.length →
                width + lengthWidth ≤ rest.length := by
  have length := recvData.pdu_length
  rw [pdu, length_cons] at length
  unfold wtsReadDrdynvcChannelPdu
  cases read : wtsReadVariableUint recvData.buffer 1 (pduCbChId val) with
  | none =>
    refine iff_of_true (.nil _) ?_
    intro width known room
    rw [serverReadVariableUint_of_le known room] at read
    cases read
  | some got =>
    obtain ⟨channelId, width⟩ := got
    obtain ⟨known, room, id⟩ := serverReadVariableUint_eq_some read
    have idSpan : (⟨1, width⟩ : Span).start + (⟨1, width⟩ : Span).length ≤ recvData.position ↔
        width ≤ rest.length := by
      simp only
      omega
    constructor
    · intro within other otherKnown _
      rw [known] at otherKnown
      cases otherKnown
      cases got : vcm.dynamicVirtualChannels channelId with
      | none =>
        simp only [got, spansWithin_cons, idSpan] at within
        refine ⟨within.1, ?_⟩
        intro dvc dvcGot
        rw [← recvData.take_channelId pdu within.1, ← id, got] at dvcGot
        cases dvcGot
      | some dvc =>
        simp only [got, spansWithin_cons, idSpan] at within
        refine ⟨within.1, ?_⟩
        intro other otherGot
        rw [← recvData.take_channelId pdu within.1, ← id, got] at otherGot
        cases otherGot
        exact (readChannel_covered_iff pdu le within.1 dvc).mp within.2
    intro covered
    obtain ⟨fits, chans⟩ := covered width known room
    rw [← recvData.take_channelId pdu fits, ← id] at chans
    cases got : vcm.dynamicVirtualChannels channelId with
    | none =>
      simp only [got]
      exact spansWithin_cons.mpr ⟨idSpan.mpr fits, .nil _⟩
    | some dvc =>
      simp only [got]
      exact spansWithin_cons.mpr
        ⟨idSpan.mpr fits, (readChannel_covered_iff pdu le fits dvc).mpr (chans dvc got)⟩

end

theorem readCapabilitiesResponse_within (vcm : VirtualChannelManager)
    (buffer : List UInt8) (length : Nat) :
    SpansWithin (wtsReadDrdynvcCapabilitiesResponse vcm buffer length).spans (1 + length) := by
  unfold wtsReadDrdynvcCapabilitiesResponse
  by_cases short : length < 3
  · rw [if_pos short]
    exact .nil _
  have version : SpansWithin [⟨1, 3⟩] (1 + length) := spansWithin_cons.mpr ⟨by simp only; omega, .nil _⟩
  rw [if_neg short]
  simp only
  split
  · exact version
  · exact version

theorem readCommand_within_iff (pdu : recvData.pdu = val :: rest) (le : recvData.position ≤ UINT32_MAX) :
    SpansWithin
    (wtsReadDrdynvcCommand vcm recvData val (recvData.position - 1)).spans recvData.position ↔
      PduCovered vcm recvData.buffer.length (val :: rest) := by
  have length := recvData.pdu_length
  rw [pdu, length_cons] at length
  unfold wtsReadDrdynvcCommand PduCovered
  by_cases capability : pduCmd val = .capabilityRequest
  · rw [if_pos capability]
    refine iff_of_true ?_ (fun _ known => absurd capability known.1)
    have within := readCapabilitiesResponse_within vcm recvData.buffer (recvData.position - 1)
    rw [show 1 + (recvData.position - 1) = recvData.position by omega] at within
    exact within
  rw [if_neg capability]
  by_cases ready : vcm.ready = true
  · rw [if_neg (fun no => no ready)]
    by_cases request : pduCmd val = .softSyncRequest
    · rw [if_pos request]
      exact iff_of_true (.nil _) (fun _ known => absurd request known.2.1)
    rw [if_neg request]
    by_cases response : pduCmd val = .softSyncResponse
    · rw [if_pos response]
      exact iff_of_true (.nil _) (fun _ known => absurd response known.2.2)
    rw [if_neg response, readChannelPdu_within_iff pdu le]
    exact ⟨fun covered _ _ => covered, fun covered => covered ready ⟨capability, request, response⟩⟩
  · rw [if_pos ready]
    exact iff_of_true (.nil _) (fun yes => absurd yes ready)

end Pdu

theorem readPdu_within_iff (vcm : VirtualChannelManager) (receiveData : ReceiveData) :
    SpansWithin (wtsReadDrdynvcPdu vcm receiveData).spans receiveData.position ↔
      PduCovered vcm receiveData.buffer.length receiveData.pdu := by
  have length := receiveData.pdu_length
  unfold wtsReadDrdynvcPdu
  by_cases unread : receiveData.position < 1 ∨ receiveData.position > UINT32_MAX
  · rw [if_pos unread]
    refine iff_of_true (.nil _) ?_
    obtain _ | large := unread
    · rw [length_eq_zero_iff.mp (by omega : receiveData.pdu.length = 0)]
      trivial
    unfold UINT32_MAX at large
    exact .of_long (by omega)
  rw [if_neg unread]
  obtain ⟨value, _, pdu⟩ := exists_cons_of_length_pos (by omega : 0 < receiveData.pdu.length)
  have head : receiveData.buffer.headD 0 = value := by rw [receiveData.buffer_eq pdu]; rfl
  have fstByte : (⟨0, 1⟩ : Span).start + (⟨0, 1⟩ : Span).length ≤ receiveData.position := by
    simp only
    omega
  rw [spansWithin_cons, and_iff_right fstByte, head, pdu, readCommand_within_iff pdu (by omega)]

/-! ## Whole runs -/

theorem processChannelData_confined_iff (server : DrdynvcServer) (chunk : ChannelChunk) :
    (wtsProcessChannelData server chunk).2.Confined ↔ ChunkCovered server chunk := by
  unfold wtsProcessChannelData ChunkCovered
  cases chunk.last with
  | false => exact iff_of_true (SpansWithin.nil _) (fun last => Bool.noConfusion last)
  | true =>
    simp only [if_true, true_imp_iff]
    exact readPdu_within_iff server.vcm (receiveChunk server.receiveData chunk)

def serverStep : Option DrdynvcServer → ChannelChunk → Option DrdynvcServer × ChunkRead
  | none, _ => (none, ⟨0, [], .error .assertion⟩)
  | some server, chunk =>
    match wtsProcessChannelData server chunk with
    | (server, read) => (if read.result.isOk then some server else none, read)

def StepCovered (server : Option DrdynvcServer) (chunk : ChannelChunk) : Prop :=
  ∀ running, server = some running → ChunkCovered running chunk

/-- In a session everything that is read belongs to the PDU it is read from, if and only if each
PDU has the fields of its header. -/
theorem drdynvc_confined_iff (server : DrdynvcServer) (chunks : List ChannelChunk) :
    (∀ read ∈ outputs serverStep (some server) chunks, read.Confined) ↔
      StepsMeet serverStep StepCovered (some server) chunks := by
  apply forall_outputs_iff
  intro server chunk
  cases server with
  | none => exact iff_of_true (SpansWithin.nil _) nofun
  | some server =>
    refine (processChannelData_confined_iff server chunk).trans ?_
    constructor
    · intro covered _ same
      cases same
      exact covered
    intro covered
    exact covered server rfl

def newReceiveData (size : { n : Nat // 0 < n }) : ReceiveData where
  buffer := List.replicate size 0
  position := 0
  inside := Nat.zero_le _
  allocated := by
    rw [List.length_replicate]
    exact size.2

def sevenServer : DrdynvcServer where
  vcm :=
    { ready := true
      dynamicVirtualChannels := fun channelId =>
        if channelId = 7 then
          some ⟨7, .succeeded, 0, newReceiveData ⟨1600, by decide⟩, []⟩
        else none
      dvcCreationStatus := fun _ _ => true }
  receiveData := newReceiveData ⟨1600, by decide⟩

/-- A PDU with a byte for the channel, and one that ends behind its command.  The second one is
taken for data of the same channel, of nearly four gigabytes. -/
theorem drdynvc_not_confined : ¬∀ read ∈ outputs serverStep (some sevenServer)
      [⟨true, true, [0x32, 7, 0, 0, 0, 0xAA]⟩, ⟨true, true, [0x32]⟩], read.Confined := by
  have reads : (outputs serverStep (some sevenServer)
      [⟨true, true, [0x32, 7, 0, 0, 0, 0xAA]⟩, ⟨true, true, [0x32]⟩]).map (fun read =>
        (read.pduLength, read.spans)) =
      [(6, [⟨0, 1⟩, ⟨1, 4⟩, ⟨5, 1⟩]), (1, [⟨0, 1⟩, ⟨1, 4⟩, ⟨5, 2 ^ 32 - 4⟩])] := by
    decide +kernel
  intro confined
  have second :
    ((1, [⟨0, 1⟩, ⟨1, 4⟩, ⟨5, 2 ^ 32 - 4⟩]) : Nat × List Span) ∈ (outputs serverStep (some sevenServer)
      [⟨true, true, [0x32, 7, 0, 0, 0, 0xAA]⟩, ⟨true, true, [0x32]⟩]).map fun read =>
        (read.pduLength, read.spans) := by
    rw [reads]
    exact List.mem_cons_of_mem _ List.mem_cons_self
  obtain ⟨read, mem, same⟩ := List.mem_map.mp second
  obtain ⟨length, spans⟩ := Prod.mk.inj same
  have inside := confined read mem
  rw [ChunkRead.Confined, length, spans] at inside
  exact absurd (inside ⟨1, 4⟩ (by decide)) (by decide)

end KvmServer.Core
