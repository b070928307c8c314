import KvmServer.Lib.Cut
import KvmServer.Lib.Loop

/-! # Splitting RemoteFX messages (`rfx.c`)

`rfx_encode_messages` moves the tiles of a message to messages of limited size.  It looks up where
a tile goes before it decides to start the next message, so the tile that exceeds the limit still
goes to the old one. -/

namespace KvmServer.Codec
open Lib List Nat

inductive RfxStop where
  /-- A `WINPR_ASSERT` fails. -/
  | assertion
  /-- An element behind the end of the allocated messages is used. -/
  | outside
deriving DecidableEq

structure RfxTile where
  (xIdx yIdx yLen cbLen crLen : UInt16)
deriving DecidableEq

structure RfxRect where
  (x y width height : UInt16)
deriving DecidableEq

/-- `numRects`, `numTiles` and `numQuant` are the lengths of the lists. -/
structure RfxMessage where
  frameIdx : Nat := 0
  rects : List RfxRect := []
  tiles : List RfxTile := []
  allocatedTiles : Nat := 0
  quantVals : List UInt32 := []
  tilesDataSize : Nat := 0
  freeArray : Bool := false

/-- `list` is what has been allocated, `count` what the caller is told. -/
structure RfxMessageList where
  list : List RfxMessage
  count : Nat

def rfxTileLength (tile : RfxTile) : Nat := 19 + tile.yLen.toNat + tile.cbLen.toNat + tile.crLen.toNat

/-- The message `rfx_encode_message` ends with; `tilesDataSize` is a `UINT32` sum. -/
def rfxEncodedMessage (frameIdx : Nat) (rects : List RfxRect) (quantVals : List UInt32)
    (tiles : List RfxTile) : RfxMessage :=
  { frameIdx := frameIdx
    rects := rects
    tiles := tiles
    allocatedTiles := tiles.length
    quantVals := quantVals
    tilesDataSize := tiles.foldl (fun sum tile => (sum + rfxTileLength tile) % 2 ^ 32) 0 }

def rfxStartMessage (message msg : RfxMessage) (j : Nat) : Except RfxStop RfxMessage :=
  if msg.tiles.length = 0 then
    if msg.quantVals ≠ [] ∨ msg.rects ≠ [] then .error .assertion
    else .ok { msg with
      frameIdx := (message.frameIdx + j) % 2 ^ 32
      quantVals := message.quantVals
      rects := message.rects
      freeArray := true
      allocatedTiles := message.tiles.length }
  else .ok msg

variable (message : RfxMessage)

def rfxSplitTile (maxDataSize : Nat) (state : List RfxMessage × Nat) (tile : RfxTile) :
    Except RfxStop (List RfxMessage × Nat) :=
  match state.1[state.2]? with
  | none => .error .outside
  | some msg =>
    let j := if msg.tilesDataSize + rfxTileLength tile > maxDataSize % 2 ^ 32 then state.2 + 1
      else state.2
    do
      let msg ← rfxStartMessage message msg j
      if ¬msg.tiles.length < msg.allocatedTiles then .error .assertion
      else
        return (state.1.set state.2 { msg with
          tilesDataSize := (msg.tilesDataSize + rfxTileLength tile) % 2 ^ 32
          tiles := msg.tiles ++ [tile] }, j)

/-- The messages, their number, and the original message without its tiles; `maxDataSize` is a
`size_t`. -/
def rfxSplitMessage (maxDataSize : Nat) : Except RfxStop (RfxMessageList × RfxMessage) := do
  let maxDataSize := (maxDataSize + 2 ^ 64 - 1024) % 2 ^ 64
  let numMessages := (message.tilesDataSize + maxDataSize) % 2 ^ 64 / maxDataSize * 4
  let state ← message.tiles.foldlM (rfxSplitTile message maxDataSize) (List.replicate numMessages {}, 0)
  return (⟨state.1, state.2 + 1⟩, { message with tiles := [] })

def rfxMessageFree : List RfxTile := message.tiles

def rfxEncodeMessages (maxDataSize : Nat) : Except RfxStop (RfxMessageList × List RfxTile) := do
  let (list, message) ← rfxSplitMessage message maxDataSize
  return (list, rfxMessageFree message)

/-! ## The messages of the loop -/

section Loop
variable {message : RfxMessage} {lim : Nat} {tiles : List RfxTile}

structure Carries (message msg : RfxMessage) (tiles : List RfxTile) : Prop where
  tiles_eq : msg.tiles = tiles
  size_eq : msg.tilesDataSize = total rfxTileLength tiles % 2 ^ 32
  rects_eq : msg.rects = if tiles = [] then [] else message.rects
  quants_eq : msg.quantVals = if tiles = [] then [] else message.quantVals
  room : tiles = [] ∨ msg.allocatedTiles = message.tiles.length

theorem carries_nil : Carries message {} [] := ⟨rfl, rfl, rfl, rfl, .inl rfl⟩

theorem rfxStartMessage_ok {msg : RfxMessage} {cur : List RfxTile} (carry : Carries message msg cur)
    (j : Nat) : ∃ msg', rfxStartMessage message msg j = .ok msg' ∧ msg'.tiles = cur ∧
      msg'.tilesDataSize = total rfxTileLength cur % 2 ^ 32 ∧ msg'.rects = message.rects ∧
      msg'.quantVals = message.quantVals ∧ msg'.allocatedTiles = message.tiles.length := by
  obtain ⟨rfl, size, rects, qs, room⟩ := carry
  unfold rfxStartMessage
  by_cases fst : msg.tiles = []
  · rw [if_pos fst] at rects qs
    rw [if_pos (by rw [fst]; rfl), if_neg (by simp [rects, qs])]
    exact ⟨_, rfl, rfl, size, rfl, rfl, rfl⟩
  rw [if_neg fst] at rects qs
  rw [if_neg (by simpa using fst)]
  exact ⟨msg, rfl, rfl, size, rects, qs, room.resolve_left fst⟩

theorem rfxSplitTile_ok {done later : List RfxMessage} {msg : RfxMessage} {current : List RfxTile}
    (carry : Carries message msg current) (lo : total rfxTileLength current ≤ lim % 2 ^ 32)
    (tile : RfxTile)
    (few : current.length < message.tiles.length) : ∃ msg', Carries message msg' (current ++ [tile]) ∧
      rfxSplitTile message lim (done ++ msg :: later, done.length) tile = .ok (done ++ msg' :: later,
          if lim % 2 ^ 32 < total rfxTileLength current + rfxTileLength tile then done.length + 1
          else done.length) := by
  have lt : total rfxTileLength current % 2 ^ 32 = total rfxTileLength current :=
    mod_eq_of_lt (lt_of_le_of_lt lo (mod_lt _ (Nat.two_pow_pos 32)))
  have size := carry.size_eq
  rw [lt] at size
  have here : (done ++ msg :: later)[done.length]? = some msg := by simp
  obtain ⟨started, st, tiles, startedSize, rects, qs, alloc⟩ := rfxStartMessage_ok carry
    (if lim % 2 ^ 32 < total rfxTileLength current + rfxTileLength tile then done.length + 1
      else done.length)
  refine ⟨{ started with
    tilesDataSize := (started.tilesDataSize + rfxTileLength tile) % 2 ^ 32
    tiles := started.tiles ++ [tile] }, ⟨?_, ?_, ?_, ?_, .inr alloc⟩, ?_⟩
  · rw [← tiles]
  · dsimp only
    rw [startedSize, mod_add_mod, total_append, total_cons, total_nil, add_zero]
  · rw [if_neg (append_ne_nil_of_right_ne_nil _ (cons_ne_nil _ _))]
    exact rects
  · rw [if_neg (append_ne_nil_of_right_ne_nil _ (cons_ne_nil _ _))]
    exact qs
  unfold rfxSplitTile
  simp only [here, size, gt_iff_lt]
  rw [st]
  change (if _ then _ else _) = _
  rw [if_neg (by rw [tiles, alloc]; exact not_not.mpr few), set_append_right _ _ le_rfl, Nat.sub_self]
  rfl

theorem foldlM_rfxSplitTile_behind {msgs msgs' : List RfxMessage} {j j' : Nat} (past : msgs.length ≤ j)
    (run : tiles.foldlM (rfxSplitTile message lim) (msgs, j) = .ok (msgs', j')) : msgs'.length ≤ j' := by
  cases tiles with
  | nil =>
    cases run
    exact past
  | cons _ tiles =>
    have none : msgs[j]? = none := getElem?_eq_none past
    rw [foldlM_cons, rfxSplitTile] at run
    simp only [none] at run
    cases run

/-- With room for all runs each gets its message; without it the index leaves the list. -/
theorem foldlM_rfxSplitTile {done : List RfxMessage} {msg : RfxMessage}
    {cur : List RfxTile} {spare : Nat}
    (carry : Carries message msg cur) (lo : total rfxTileLength cur ≤ lim % 2 ^ 32)
    (few : cur.length + tiles.length ≤ message.tiles.length) :
    if (runs rfxTileLength (lim % 2 ^ 32) cur tiles).length ≤ spare + 1 then
      ∃ new rest, List.Forall₂ (Carries message) new (runs rfxTileLength (lim % 2 ^ 32) cur tiles) ∧
        tiles.foldlM (rfxSplitTile message lim) (done ++ msg :: replicate spare {}, done.length) =
          .ok (done ++ new ++ rest, done.length + new.length - 1) else ∀ msgs j,
    tiles.foldlM (rfxSplitTile message lim) (done ++ msg :: replicate spare {}, done.length) =
      .ok (msgs, j) → msgs.length ≤ j := by
  induction tiles generalizing done msg cur spare with
  | nil =>
    rw [if_pos (by simp [runs])]
    refine ⟨[msg], replicate spare {}, .cons carry .nil, ?_⟩
    simp [pure, Except.pure]
  | cons tile tiles ih =>
    rw [length_cons] at few
    obtain ⟨msg', carry', step⟩ :=
      @rfxSplitTile_ok message lim done (replicate spare {}) msg cur carry lo tile (by omega)
    rw [foldlM_cons, step, ok_bind, runs]
    by_cases beyond : lim % 2 ^ 32 < total rfxTileLength cur + rfxTileLength tile
    · -- the next tile goes to the next message
      have some := length_pos_of_ne_nil (@runs_ne_nil _ rfxTileLength (lim % 2 ^ 32) [] tiles)
      simp only [if_pos beyond, length_cons]
      cases spare with
      | zero =>
        rw [if_neg (by omega)]
        exact fun _ _ => foldlM_rfxSplitTile_behind (by simp)
      | succ spare =>
        have later :=
          @ih (done ++ [msg']) {} [] spare carries_nil (zero_le _) (by simp only [length_nil]; omega)
        rw [length_append, length_singleton, append_assoc] at later
        split at later
        · next room =>
          obtain ⟨new, rest, carried, run⟩ := later
          rw [if_pos (Nat.succ_le_succ room)]
          refine ⟨msg' :: new, rest, .cons carry' carried, run.trans ?_⟩
          have idx : done.length + 1 + new.length = done.length + (new.length + 1) := by omega
          rw [idx, length_cons]
          simp only [append_assoc, cons_append, nil_append]
        · next =>
          rw [if_neg (by omega)]
          exact later
    · simp only [if_neg beyond]
      exact ih carry' (by simpa using beyond) (by simp; omega)

end Loop

/-! ## Splitting -/

/-- The tiles in their order, with all rectangles and quantisation values in every message and none
larger than `limit`. -/
structure SplitsExactly (message : RfxMessage) (limit : Nat)
    (result : RfxMessageList × List RfxTile) : Prop where
  inside : result.1.count ≤ result.1.list.length
  order : (result.1.list.take result.1.count).flatMap RfxMessage.tiles = message.tiles
  some : ∀ msg ∈ result.1.list.take result.1.count, msg.tiles ≠ []
  complete : ∀ msg ∈ result.1.list.take result.1.count, msg.rects = message.rects ∧
    msg.quantVals = message.quantVals
  size : ∀ msg ∈ result.1.list.take result.1.count, total rfxTileLength msg.tiles ≤ limit
  kept : result.2 = []

/-- The limit of the loop is only the lower 32 bits of `maxDataSize - 1024`.  Where nothing is
lost, the tiles must fit into one message; otherwise into the messages that are allocated, with
something left for the last one. -/
def SplitCondition (message : RfxMessage) (limit : Nat) : Prop :=
  if limit < 2 ^ 32 then total rfxTileLength message.tiles ≤ limit
  else ∃ n, Cut rfxTileLength (limit % 2 ^ 32) message.tiles n ∧
    n ≤ (message.tilesDataSize + limit) % 2 ^ 64 / limit * 4

section Split
variable {message : RfxMessage} {limit : Nat}
variable {new : List RfxMessage} {ts : List (List RfxTile)}

section
variable (carried : List.Forall₂ (Carries message) new ts)
include carried

theorem flatMap_tiles : new.flatMap RfxMessage.tiles = ts.flatten := by
  induction carried with
  | nil => rfl
  | cons fst _ ih => rw [flatMap_cons, flatten_cons, fst.tiles_eq, ih]

theorem forall_carried (P : List RfxTile → Prop) : (∀ msg ∈ new, P msg.tiles) ↔ ∀ run ∈ ts, P run := by
  induction carried with
  | nil => simp
  | cons fst _ ih =>
    rw [forall_mem_cons, forall_mem_cons, fst.tiles_eq, ih]

theorem carries_of_mem {msg : RfxMessage} (mem : msg ∈ new) : Carries message msg msg.tiles := by
  induction carried with
  | nil => cases mem
  | cons fst _ ih =>
    cases mem with
    | head => rwa [fst.tiles_eq]
    | tail _ later => exact ih later

end

/-- The messages are the maximal runs of tiles below the limit. -/
theorem splitsExactly_iff_runs {spare : Nat} :
    (∃ st, message.tiles.foldlM (rfxSplitTile message limit) (replicate (spare + 1) {}, 0) = .ok st ∧
      SplitsExactly message limit (⟨st.1, st.2 + 1⟩, [])) ↔
    (runs rfxTileLength (limit % 2 ^ 32) [] message.tiles).length ≤ spare + 1 ∧
      (runs rfxTileLength (limit % 2 ^ 32) [] message.tiles).getLast? ≠ some [] ∧
      ∀ run ∈ runs rfxTileLength (limit % 2 ^ 32) [] message.tiles, total rfxTileLength run ≤ limit := by
  have loop :=
    @foldlM_rfxSplitTile message limit message.tiles [] {} [] spare carries_nil (zero_le _) (by simp)
  split at loop
  · next room =>
    obtain ⟨new, rest, carried, run⟩ := loop
    have count : new.length ≠ 0 := by
      rw [carried.length_eq]
      exact Nat.ne_of_gt (length_pos_of_ne_nil (runs_ne_nil _ _))
    have taken : (new ++ rest).take (new.length - 1 + 1) = new := by
      rw [Nat.sub_add_cancel (Nat.pos_of_ne_zero count), take_left]
    simp only [nil_append, length_nil, zero_add] at run
    rw [replicate_succ, run, ← runs_some_iff, ← forall_carried carried, ← forall_carried carried]
    constructor
    · rintro ⟨st, got, exact⟩
      cases got
      refine ⟨room, ?_, ?_⟩
      · have some := exact.some
        rwa [taken] at some
      have size := exact.size
      rwa [taken] at size
    rintro ⟨-, some, size⟩
    refine ⟨_, rfl, ?_, ?_, ?_, ?_, ?_, rfl⟩
    · dsimp only
      rw [length_append]
      omega
    · dsimp only
      rw [taken, flatMap_tiles carried, runs_flatten, nil_append]
    · dsimp only
      rw [taken]
      exact some
    · dsimp only
      rw [taken]
      intro msg mem
      have carry := carries_of_mem carried mem
      have rects := carry.rects_eq
      have qs := carry.quants_eq
      rw [if_neg (some msg mem)] at rects qs
      exact ⟨rects, qs⟩
    · dsimp only
      rw [taken]
      exact size
  · next room =>
    apply iff_of_false
    · rintro ⟨⟨msgs, j⟩, got, exact⟩
      have past := loop msgs j got
      have inside := exact.inside
      dsimp only at inside
      omega
    · exact fun all => room all.1

end Split

theorem rfxTileLength_le (tile : RfxTile) : 19 ≤ rfxTileLength tile ∧ rfxTileLength tile ≤ 196624 := by
  have y := tile.yLen.toNat_lt
  have cb := tile.cbLen.toNat_lt
  have cr := tile.crLen.toNat_lt
  unfold rfxTileLength
  omega

theorem tilesDataSize_lt (frIdx : Nat) (rects : List RfxRect) (quantVals : List UInt32)
    (tiles : List RfxTile) :
    (rfxEncodedMessage frIdx rects quantVals tiles).tilesDataSize < 2 ^ 32 := by
  unfold rfxEncodedMessage
  dsimp only
  cases eq_nil_or_concat tiles with
  | inl none =>
    rw [none]
    decide
  | inr last =>
    obtain ⟨_, _, rfl⟩ := last
    rw [concat_eq_append, foldl_append]
    exact mod_lt _ (Nat.two_pow_pos 32)

variable {limit : Nat} {message : RfxMessage}

theorem cut_pos {tiles : List RfxTile} {n : Nat} (cut : Cut rfxTileLength limit tiles n) : 0 < n := by
  cases cut with
  | last => exact Nat.one_pos
  | run => exact succ_pos _

theorem runs_condition_of_lt {numMsgs : Nat} (some : message.tiles ≠ [])
    (lt : limit < 2 ^ 32) (pos : 0 < numMsgs) :
    ((runs rfxTileLength (limit % 2 ^ 32) [] message.tiles).length ≤ numMsgs ∧
      (runs rfxTileLength (limit % 2 ^ 32) [] message.tiles).getLast? ≠ Option.some [] ∧
      ∀ run ∈ runs rfxTileLength (limit % 2 ^ 32) [] message.tiles, total rfxTileLength run ≤ limit) ↔
    SplitCondition message limit := by
  rw [SplitCondition, if_pos lt, mod_eq_of_lt lt]
  constructor
  · rintro ⟨-, -, sizes⟩
    by_contra beyond
    obtain ⟨run, mem, exceeds⟩ :=
      @exists_run_of_lt_total _ rfxTileLength limit [] message.tiles (zero_le _)
      (not_le.mp beyond)
    exact absurd (sizes run mem) (Nat.not_le_of_lt exceeds)
  intro fits
  rw [runs_of_total_le (by exact fits), nil_append]
  refine ⟨pos, by simpa using some, ?_⟩
  intro run mem
  rw [mem_singleton.mp mem]
  exact fits

theorem runs_condition_of_le (big : 2 ^ 32 ≤ limit) :
    ((runs rfxTileLength (limit % 2 ^ 32) [] message.tiles).length ≤
        (message.tilesDataSize + limit) % 2 ^ 64 / limit * 4 ∧
      (runs rfxTileLength (limit % 2 ^ 32) [] message.tiles).getLast? ≠ some [] ∧
      ∀ run ∈ runs rfxTileLength (limit % 2 ^ 32) [] message.tiles, total rfxTileLength run ≤ limit) ↔
    SplitCondition message limit := by
  have cut := fun n => @runs_cut_iff _ rfxTileLength (limit % 2 ^ 32) [] message.tiles (zero_le _) n
  rw [SplitCondition, if_neg (Nat.not_lt_of_le big)]
  constructor
  · rintro ⟨room, last, -⟩
    exact ⟨_, (cut _).mpr ⟨rfl, last⟩, room⟩
  rintro ⟨n, isCut, room⟩
  obtain ⟨rfl, last⟩ := (cut n).mp isCut
  refine ⟨room, last, ?_⟩
  -- the loop compares with less than what is allowed, by more than a tile
  intro run mem
  have bound := @total_run_le _ rfxTileLength (limit % 2 ^ 32) [] message.tiles 196624 (zero_le _)
    (fun tile _ => (rfxTileLength_le tile).2) run mem
  omega

/-- A message is split as it should be if and only if its tiles fit into one message, as long as
`maxDataSize - 1024` fits into 32 bits. -/
theorem rfx_encode_messages_split_iff (frameIdx : Nat) (rects : List RfxRect) (quantVals : List UInt32)
    {tiles : List RfxTile} (some : tiles ≠ []) {maxDataSize : Nat}
    (fits : ∀ tile ∈ tiles, rfxTileLength tile ≤ (maxDataSize + 2 ^ 64 - 1024) % 2 ^ 64) :
    (∃ result, rfxEncodeMessages (rfxEncodedMessage frameIdx rects quantVals tiles) maxDataSize =
      .ok result ∧ SplitsExactly (rfxEncodedMessage frameIdx rects quantVals tiles)
      ((maxDataSize + 2 ^ 64 - 1024) % 2 ^ 64) result) ↔
    SplitCondition (rfxEncodedMessage frameIdx rects quantVals tiles)
    ((maxDataSize + 2 ^ 64 - 1024) % 2 ^ 64) := by
  have sizeLt := tilesDataSize_lt frameIdx rects quantVals tiles
  have someTs : (rfxEncodedMessage frameIdx rects quantVals tiles).tiles ≠ [] := some
  generalize enc : rfxEncodedMessage frameIdx rects quantVals tiles = message at sizeLt someTs
  have limPos : 0 < (maxDataSize + 2 ^ 64 - 1024) % 2 ^ 64 := by
    obtain ⟨tile, others, got⟩ := List.exists_cons_of_ne_nil some
    have ge := (rfxTileLength_le tile).1
    have most := fits tile (by rw [got]; exact List.mem_cons_self)
    omega
  -- the call is the loop
  have call : (∃ result, rfxEncodeMessages message maxDataSize = .ok result ∧
        SplitsExactly message ((maxDataSize + 2 ^ 64 - 1024) % 2 ^ 64) result) ↔
      ∃ st, message.tiles.foldlM (rfxSplitTile message ((maxDataSize + 2 ^ 64 - 1024) % 2 ^ 64))
          (List.replicate ((message.tilesDataSize + (maxDataSize + 2 ^ 64 - 1024) % 2 ^ 64) % 2 ^ 64 /
            ((maxDataSize + 2 ^ 64 - 1024) % 2 ^ 64) * 4) {}, 0) = .ok st ∧
        SplitsExactly message ((maxDataSize + 2 ^ 64 - 1024) % 2 ^ 64) (⟨st.1, st.2 + 1⟩, []) := by
    unfold rfxEncodeMessages rfxSplitMessage
    dsimp only
    cases message.tiles.foldlM (rfxSplitTile message ((maxDataSize + 2 ^ 64 - 1024) % 2 ^ 64)) _ with
    | error _ =>
      apply iff_of_false
      · rintro ⟨result, got, -⟩
        cases got
      rintro ⟨st, got, -⟩
      cases got
    | ok st =>
      constructor
      · rintro ⟨result, got, exact⟩
        cases got
        exact ⟨st, rfl, exact⟩
      rintro ⟨st, got, exact⟩
      cases got
      exact ⟨_, rfl, exact⟩
  rw [call]
  generalize (maxDataSize + 2 ^ 64 - 1024) % 2 ^ 64 = limit at limPos
  generalize alloc : (message.tilesDataSize + limit) % 2 ^ 64 / limit * 4 = numMsgs
  cases numMsgs with
  | zero =>
    -- no message is allocated: this takes a sum that wraps in 64 bits
    apply iff_of_false
    · rintro ⟨st, got, -⟩
      obtain ⟨tile, others, head⟩ := List.exists_cons_of_ne_nil someTs
      rw [head, List.foldlM_cons] at got
      cases got
    rw [SplitCondition]
    split
    · have wide : (message.tilesDataSize + limit) % 2 ^ 64 = message.tilesDataSize + limit :=
        Nat.mod_eq_of_lt (by omega)
      have quot : 0 < (message.tilesDataSize + limit) / limit := Nat.div_pos (by omega) limPos
      rw [wide] at alloc
      omega
    rintro ⟨n, cut, _⟩
    have pos := cut_pos cut
    omega
  | succ spare =>
    rw [splitsExactly_iff_runs]
    by_cases lt : limit < 2 ^ 32
    · exact runs_condition_of_lt someTs lt (Nat.succ_pos spare)
    · rw [← runs_condition_of_le (Nat.le_of_not_lt lt), alloc]

/-- Two tiles of 19 bytes and room for both. -/
theorem rfx_encode_messages_split_iff_two :
    (∃ result, rfxEncodeMessages
      (rfxEncodedMessage 0 [] [] [⟨0, 0, 0, 0, 0⟩, ⟨1, 0, 0, 0, 0⟩]) 2048 = .ok result ∧
      SplitsExactly (rfxEncodedMessage 0 [] [] [⟨0, 0, 0, 0, 0⟩, ⟨1, 0, 0, 0, 0⟩])
      ((2048 + 2 ^ 64 - 1024) % 2 ^ 64) result) ↔
    SplitCondition (rfxEncodedMessage 0 [] [] [⟨0, 0, 0, 0, 0⟩, ⟨1, 0, 0, 0, 0⟩])
    ((2048 + 2 ^ 64 - 1024) % 2 ^ 64) :=
  rfx_encode_messages_split_iff 0 [] [] (List.cons_ne_nil _ _) (by decide)

/-- The same two tiles and room for one at a time: both go to the first message, and the second one
is empty. -/
theorem rfx_encode_messages_not_split :
    ∃ result, rfxEncodeMessages
    (rfxEncodedMessage 0 [] [] [⟨0, 0, 0, 0, 0⟩, ⟨1, 0, 0, 0, 0⟩]) 1043 = .ok result ∧
      (result.1.list.take result.1.count).map
      (fun msg => (msg.tiles.length, total rfxTileLength msg.tiles)) =
        [(2, 38), (0, 0)] ∧
      ¬SplitsExactly (rfxEncodedMessage 0 [] [] [⟨0, 0, 0, 0, 0⟩, ⟨1, 0, 0, 0, 0⟩])
      (1043 - 1024) result := by
  refine ⟨_, rfl, by decide, ?_⟩
  intro exact
  have fst := exact.size _ (List.mem_cons_self)
  exact absurd fst (by decide)

end KvmServer.Codec
