import KvmServer.Core.FastpathSession
import KvmServer.Core.TransportFraming

/-! # Fast-path updates through the transport

The PDUs of a session of updates are one stream of bytes, which reaches the client in pieces of any
size.  The transport finds the PDUs again, and the client puts the updates together. -/

namespace KvmServer.Core
open Lib Winpr Crypto List

variable (codec : BulkCodec) (settings : FastpathSettings)

/-- The PDUs of all updates, in order. -/
def fastpathSendUpdates : codec.Send → List (UInt8 × List UInt8 × Bool) → List (List UInt8)
  | _, [] => []
  | bulk, update :: updates =>
    let sent := fastpathSendUpdatePdu codec settings bulk update.1 update.2.1 update.2.2
    sent.pdus ++ fastpathSendUpdates sent.bulk updates

/-- What the caller of `transport_read_pdu` finds in the stream. -/
def TransportRead.pdu (read : TransportRead) : List UInt8 :=
    block read.stream.buffer 0 read.stream.length

variable {codec settings} {recvUpdate : UInt8 → List UInt8 → Bool}
  {Synced : codec.Send → codec.Recv → Prop}
  {updates : List (UInt8 × List UInt8 × Bool)} {send : codec.Send} {client : RdpFastPath codec}

theorem sendFragments_action (compressed : Bool) (maxLen : { n : Nat // 0 < n })
    (code : UInt8) (isFirst : Bool)
    (send : codec.Send) (payload : List UInt8) :
    ∀ pdu ∈ (fastpathSendFragments codec compressed maxLen code isFirst send payload).pdus, ∃ rest,
    pdu = 0 :: rest := by
  have action {header data pdu} (written : fastpathWritePdu header data = some pdu) : ∃ rest,
      pdu = 0 :: rest := by
    simp only [fastpathWritePdu, fastpathWriteUpdatePduHeader, cons_append, gt_iff_lt,
      Option.ite_none_left_eq_some] at written
    exact ⟨_, (Option.some.inj written.2.2).symm⟩
  fun_induction fastpathSendFragments with
  | case1 | case2 | case3 => exact fun _ mem => absurd mem not_mem_nil
  | case4 => exact forall_mem_singleton.mpr (action ‹_›)
  | case5 => exact forall_mem_cons.mpr ⟨action ‹_›, ‹_›⟩

/-- The action in the first byte keeps the PDU from being taken for a TPKT. -/
theorem framedPdu_of_wellFormed {rest : List UInt8} (wellFormed : WellFormedPdu (0 :: rest)) :
    FramedPdu (0 :: rest) := by
  obtain ⟨-, body, read, total⟩ := wellFormed
  have marked : ∀ n < 256, n &&& 0x80 ≠ 0 → 0x80 ≤ n ∧ (n &&& 0x7F) <<< 8 = (n - 0x80) * 0x100 :=
    by decide +kernel
  simp only [fastpathReadHeaderRdp, streamReadBE_cons] at read
  cases rest with
  | nil => simp at total
  | cons length1 rest =>
    simp only [perReadLength, streamReadBE_cons] at read
    by_cases long : length1.toNat &&& 0x80 ≠ 0
    · simp only [if_pos long] at read
      cases rest with
      | nil => cases read
      | cons length2 rest =>
        obtain ⟨mark, high⟩ := marked _ length1.toNat_lt long
        simp only [streamReadBE_cons, gt_iff_lt, Option.ite_none_left_eq_some,
          Option.some.injEq, Prod.mk.injEq] at read
        obtain ⟨least, length, rfl⟩ := read
        simp only [length_cons] at least length
        exact .fastPathLong (by decide) mark (by omega) (by omega)
    · -- a length of one byte leaves one byte more to the body
      simp only [if_neg long, Option.ite_none_left_eq_some, Option.some.injEq, Prod.mk.injEq] at read
      cases read.2.2
      simp only [length_cons] at total
      omega

theorem fastpathRecvPdus_append (client : RdpFastPath codec) (first later : List (List UInt8)) :
    fastpathRecvPdus codec settings recvUpdate client (first ++ later) =
      let received := fastpathRecvPdus codec settings recvUpdate client first
      let rest := fastpathRecvPdus codec settings recvUpdate received.1 later
      (rest.1, received.2 ++ rest.2) := by
  induction first generalizing client with
  | nil => rfl
  | cons pdu first ih =>
    rw [cons_append, fastpathRecvPdus, fastpathRecvPdus]
    split
    · exact ih client
    · simp only [ih, append_assoc]

theorem sendUpdates_spec (bulk : BulkRoundTrips codec Synced) (output : settings.fastPathOutput = true)
    (code : ∀ update ∈ updates, update.1 < 16)
    (allowed : ∀ update ∈ updates, update.2.1.length ≤ settings.multifragMaxRequestSize)
    (ready : PeersReady Synced (send, client)) :
    (∀ pdu ∈ fastpathSendUpdates codec settings send updates, FramedPdu pdu) ∧
      (fastpathRecvPdus codec settings recvUpdate client
        (fastpathSendUpdates codec settings send updates)).2 =
        updates.map fun update => (update.1, update.2.1) := by
  induction updates generalizing send client with
  | nil => exact ⟨fun _ mem => absurd mem not_mem_nil, rfl⟩
  | cons update updates ih =>
    obtain ⟨code, code'⟩ := forall_mem_cons.mp code
    obtain ⟨allowed, allowed'⟩ := forall_mem_cons.mp allowed
    obtain ⟨_, recv, pdus, step, sync', wellFormed⟩ :=
      @fastpathDeliver_spec _ _ _ recvUpdate bulk output send client ready.1 ready.2 update code allowed
    simp only [fastpathDeliver, Prod.mk.injEq, FastpathDelivery.mk.injEq] at step
    obtain ⟨⟨rfl, idle⟩, rfl, dispatched, -⟩ := step
    obtain ⟨framed, received⟩ := @ih _ ⟨recv, none, []⟩ code' allowed' ⟨sync', rfl, rfl⟩
    refine ⟨forall_mem_append.mpr ⟨fun pdu mem => ?_, framed⟩, ?_⟩
    · have action : ∃ rest, pdu = 0 :: rest := by
        simp only [fastpathSendUpdatePdu, output, not_true, if_false,
          if_neg (Nat.not_lt.mpr allowed)] at mem
        exact sendFragments_action _ _ _ _ _ _ _ mem
      obtain ⟨rest, rfl⟩ := action
      exact framedPdu_of_wellFormed (wellFormed _ mem)
    rw [fastpathSendUpdates, fastpathRecvPdus_append]
    simp only [idle, dispatched, received, map_cons, singleton_append]

theorem Delivers.pdus_eq {reads : List TransportRead} {pdus left : List (List UInt8)}
    (delivers : Delivers reads pdus left) :
    reads.map TransportRead.pdu ++ left = pdus := by
  induction delivers with
  | none => rfl
  | next first _ ih => rw [map_cons, cons_append, ih, TransportRead.pdu, first.bytes]

/-- At any time the client has dispatched the first updates of the server, each once and as it was
sent; and all of them, once all bytes have come. -/
theorem fastpath_stream_delivers (bulk : BulkRoundTrips codec Synced)
    (output : settings.fastPathOutput = true)
    (code : ∀ update ∈ updates, update.1 < 16)
    (allowed : ∀ update ∈ updates, update.2.1.length ≤ settings.multifragMaxRequestSize)
    (ready : PeersReady Synced (send, client)) (events : List SourceEvent)
    {s : BufferStream} (start : s.position = 0)
    {supply : BufferStream → BufferStream} (fresh : ∀ s, s.position = 0 → (supply s).position = 0)
    (calls : Nat) :
    let bio : Source := ⟨(fastpathSendUpdates codec settings send updates).flatten, events⟩
    ∃ session, transportCalls supply calls ⟨s, bio, []⟩ = .ok session ∧
      let dispatched :=
        (fastpathRecvPdus codec settings recvUpdate client (session.returned.map TransportRead.pdu)).2
      dispatched <+: updates.map (fun update => (update.1, update.2.1)) ∧
      (bio.Enough → events.length ≤ calls →
        dispatched = updates.map fun update => (update.1, update.2.1)) := by
  intro bio
  obtain ⟨framed, received⟩ := @sendUpdates_spec _ _ recvUpdate _ _ _ _ bulk output code allowed ready
  obtain ⟨_, bio', reads, left, run, delivers, between, spent⟩ :=
    transportCalls_between fresh framed (@between_start _ framed _ bio start rfl) calls []
  rw [← delivers.pdus_eq, fastpathRecvPdus_append] at received
  refine ⟨_, run, ⟨_, received⟩, fun room heard => ?_⟩
  have fin : bio'.unread = [] := spent.unread_eq_nil room heard
  cases between with
  | done => exact (append_nil _).symm.trans received
  | inside holds pending =>
    -- a PDU that is not complete has bytes in the source
    have missing := congrArg List.length (fin.symm.trans holds.unread)
    rw [length_append, length_drop, length_nil] at missing
    omega

/-- Two updates of several fragments each, over a network that hands out one byte at a time. -/
theorem fastpath_stream_delivers_two :
    let updates := [(1, List.replicate 40000 7, false), (2, List.replicate 20000 9, false)]
    let stream := (fastpathSendUpdates complementCodec ⟨true, 1, 65536, true⟩ () updates).flatten
    ∃ session, transportCalls id stream.length ⟨⟨⟨fun _ => 0⟩, 0, 1, 1, Nat.zero_le 1, Nat.one_pos⟩,
        ⟨stream, List.replicate stream.length (.ready ⟨1, Nat.one_pos⟩)⟩, []⟩ = .ok session ∧
      (fastpathRecvPdus complementCodec ⟨true, 1, 65536, true⟩ (fun _ _ => true) ⟨(), none, []⟩
        (session.returned.map TransportRead.pdu)).2 =
          [(1, List.replicate 40000 7), (2, List.replicate 20000 9)] := by
  intro updates stream
  have codes : ∀ update ∈ updates, update.1 < 16 :=
    forall_mem_cons.mpr ⟨by decide, forall_mem_singleton.mpr (by decide)⟩
  have sizes : ∀ update ∈ updates, update.2.1.length ≤ 65536 :=
    forall_mem_cons.mpr ⟨length_replicate.trans_le (by decide),
      forall_mem_singleton.mpr (length_replicate.trans_le (by decide))⟩
  have room : Source.Enough ⟨stream, List.replicate stream.length (.ready ⟨1, Nat.one_pos⟩)⟩ := by
    rw [Source.Enough, Source.readies, List.countP_replicate, if_pos rfl]
  obtain ⟨session, run, -, all⟩ := @fastpath_stream_delivers _ ⟨true, 1, 65536, true⟩ (fun _ _ => true) _
    updates () ⟨(), none, []⟩ complementCodec_roundTrips rfl codes sizes ⟨trivial, rfl, rfl⟩
    (List.replicate stream.length (.ready ⟨1, Nat.one_pos⟩))
      ⟨⟨fun _ => 0⟩, 0, 1, 1, Nat.zero_le 1, Nat.one_pos⟩ rfl id
    (fun _ start => start) stream.length
  exact ⟨session, run, all room (List.length_replicate ..).le⟩

end KvmServer.Core
