import KvmServer.Lib.Bytes

/-! # The persistent bitmap cache (`cache/persistent.c`) -/

namespace KvmServer.Cache
open Lib List

/-- A block of memory: its size, and whether one of the functions for aligned memory made it. -/
structure Block where
  size : Nat
  aligned : Bool

/-- Only a block with the signature of aligned memory in front of it is taken. -/
def winprAlignedRecalloc (block : Block) (size : Nat) : Option Block :=
  if ¬block.aligned ∨ size = 0 then none
  else if block.size > size + 32 then some block
  else some ⟨size, true⟩

/-- `fp` is what is left of the file. -/
structure PersistentCache where
  version : Nat
  fp : List UInt8
  bmpSize : Nat
  bmpData : Block

/-- An entry that is handed out: `data` is what was read to the front of the buffer, and `room` the
size of that. -/
structure PersistentEntry where
  (width height size : Nat)
  data : List UInt8
  room : Nat

/-- `fread` of one object; what is left of a file that is too short is taken, too. -/
def fread (n : Nat) (fp : List UInt8) : Option (List UInt8) × List UInt8 :=
  if n = 0 then (none, fp) else if n ≤ fp.length then (some (fp.take n), fp.drop n) else (none, [])

def persistentCacheReadEntryV2 (persistent : PersistentCache) :
    PersistentCache × Option PersistentEntry :=
  match fread 20 persistent.fp with
  | (none, fp) => ({ persistent with fp }, none)
  | (some entry2, fp) =>
    let width := leValue (entry2.drop 8 |>.take 2)
    let height := leValue (entry2.drop 10 |>.take 2)
    match fread 0x4000 fp with
    | (none, fp) => ({ persistent with fp }, none)
    | (some data, fp) =>
        ({ persistent with fp }, some ⟨width, height, width * height * 4 % 2 ^ 32, data, persistent.bmpData.size⟩)

/-- The new size is stored before the memory is there. -/
def persistentCacheReadEntryV3 (persistent : PersistentCache) :
    PersistentCache × Option PersistentEntry :=
  match fread 12 persistent.fp with
  | (none, fp) => ({ persistent with fp }, none)
  | (some entry3, fp) =>
    let width := leValue (entry3.drop 8 |>.take 2)
    let height := leValue (entry3.drop 10 |>.take 2)
    let size := 4 * width * height
    if size > 2 ^ 32 - 1 then ({ persistent with fp }, none)
    else
      let grown := if size > persistent.bmpSize then winprAlignedRecalloc persistent.bmpData size
        else some persistent.bmpData
      let persistent := { persistent with bmpSize := max persistent.bmpSize size }
      match grown with
      | none => ({ persistent with fp }, none)
      | some bmpData =>
        match fread size fp with
        | (none, fp) => ({ persistent with fp, bmpData }, none)
        | (some data, fp) =>
            ({ persistent with fp, bmpData }, some ⟨width, height, size, data, bmpData.size⟩)

def persistentCacheReadEntry (persistent : PersistentCache) : PersistentCache × Option PersistentEntry :=
  if persistent.version = 3 then persistentCacheReadEntryV3 persistent
  else if persistent.version = 2 then persistentCacheReadEntryV2 persistent
  else (persistent, none)

/-- `persistent_cache_new` and `persistent_cache_open_read`; nothing is returned for a failure. -/
def persistentCacheOpenRead (file : List UInt8) : Option PersistentCache :=
  if file.length < 8 then none
  else if file.take 8 = [0x52, 0x44, 0x50, 0x38, 0x62, 0x6D, 0x70, 0] then
    if file.length < 12 then none else some ⟨3, file.drop 12, 0x4000, ⟨0x4000, false⟩⟩
  else some ⟨2, file, 0x4000, ⟨0x4000, false⟩⟩

def persistentEntries : Nat → PersistentCache → List PersistentEntry
  | 0, _ => []
  | n + 1, persistent =>
    let (persistent, entry) := persistentCacheReadEntry persistent
    entry.toList ++ persistentEntries n persistent

def PersistentEntry.Backed (entry : PersistentEntry) : Prop :=
    entry.size ≤ entry.room ∧ entry.size ≤ entry.data.length

theorem fread_some {n : Nat} {fp fp' data : List UInt8} (read : fread n fp = (some data, fp')) :
    data.length = n := by
  unfold fread at read
  split at read
  · cases read
  split at read
  · next room =>
    cases read
    exact length_take_of_le room
  · cases read

variable {pc pc' : PersistentCache} {entry : PersistentEntry} {got : Option PersistentEntry}

/-- The buffer was not made for `winpr_aligned_recalloc`: it never grows. -/
theorem persistentCacheReadEntry_spec (fixed : pc.bmpData = ⟨0x4000, false⟩)
    (read : persistentCacheReadEntry pc = (pc', got)) :
    pc'.bmpData = ⟨0x4000, false⟩ ∧ ∀ entry ∈ got, (entry.Backed ↔ entry.size ≤ 0x4000) := by
  unfold persistentCacheReadEntry at read
  split at read
  · unfold persistentCacheReadEntryV3 at read
    split at read
    · cases read
      exact ⟨fixed, nofun⟩
    dsimp only at read
    split at read
    · cases read
      exact ⟨fixed, nofun⟩
    split at read
    · cases read
      exact ⟨fixed, nofun⟩
    next grown =>
      split at grown
      · rw [fixed] at grown
        cases grown
      cases grown
      split at read
      · cases read
        exact ⟨fixed, nofun⟩
      next taken =>
        cases read
        refine ⟨fixed, ?_⟩
        rintro _ ⟨⟩
        simp only [PersistentEntry.Backed, fixed, fread_some taken, le_refl, and_true]
  split at read
  · unfold persistentCacheReadEntryV2 at read
    split at read
    · cases read
      exact ⟨fixed, nofun⟩
    split at read
    · cases read
      exact ⟨fixed, nofun⟩
    next taken =>
      cases read
      refine ⟨fixed, ?_⟩
      rintro _ ⟨⟩
      simp only [PersistentEntry.Backed, fixed, fread_some taken, and_self]
  · cases read
    exact ⟨fixed, nofun⟩

theorem persistentEntries_backed (n : Nat) (fixed : pc.bmpData = ⟨0x4000, false⟩) :
    ∀ entry ∈ persistentEntries n pc, (entry.Backed ↔ entry.size ≤ 0x4000) := by
  induction n generalizing pc with
  | zero => nofun
  | succ n ih =>
    obtain ⟨fixed', backed⟩ := persistentCacheReadEntry_spec fixed rfl
    intro entry mem
    obtain now | later := mem_append.mp mem
    · exact backed entry (Option.mem_toList.mp now)
    · exact ih fixed' entry later

/-- The entries are backed exactly if none is larger than the first buffer. -/
theorem persistent_entries_backed_iff (file : List UInt8) (n : Nat) :
    ∀ pc ∈ persistentCacheOpenRead file, (∀ entry ∈ persistentEntries n pc, entry.Backed) ↔
    ∀ entry ∈ persistentEntries n pc, entry.size ≤ 0x4000 := by
  intro pc opened
  have fixed : pc.bmpData = ⟨0x4000, false⟩ := by
    unfold persistentCacheOpenRead at opened
    grind
  have backed := @persistentEntries_backed _ n fixed
  exact forall₂_congr backed

def fileV3 : List UInt8 :=
  [0x52, 0x44, 0x50, 0x38, 0x62, 0x6D, 0x70, 0, 0, 0, 0, 0, 0, 0, 0, 0, 0, 0, 0,
    0, 1, 0, 1, 0, 1, 2, 3, 4,
    0, 0, 0, 0, 0, 0, 0, 0, 2, 0, 1, 0, 1, 2, 3, 4, 5, 6, 7, 8]

def fileV2 : List UInt8 :=
  [0, 0, 0, 0, 0, 0, 0, 0, 64, 0, 64, 0, 0, 0, 0, 0, 0, 0, 0, 0] ++ (replicate 0x4000 0 ++
    ([0, 0, 0, 0, 0, 0, 0, 0, 32, 0, 64, 0, 0, 0, 0, 0, 0, 0, 0, 0] ++ replicate 0x4000 0))

/-- Two entries of version 3, and two of version 2. -/
theorem persistent_entry_backed : ∃ v3 ∈ persistentCacheOpenRead fileV3, ∃ v2 ∈
    persistentCacheOpenRead fileV2, (persistentEntries 2 v3).map PersistentEntry.size = [4, 8] ∧
    (∀ entry ∈ persistentEntries 2 v3, entry.Backed) ∧
    (persistentEntries 2 v2).map PersistentEntry.size = [0x4000, 0x2000] ∧
      ∀ entry ∈ persistentEntries 2 v2, entry.Backed := by
  have opened : persistentCacheOpenRead fileV2 = some ⟨2, fileV2, 0x4000, ⟨0x4000, false⟩⟩ := by
    rw [fileV2]
    generalize replicate 0x4000 (0 : UInt8) = bitmap
    simp [persistentCacheOpenRead]
  have sizes3 : (persistentEntries 2 ⟨3, fileV3.drop 12, 0x4000, ⟨0x4000, false⟩⟩).map
      PersistentEntry.size = [4, 8] := by
    decide
  have sizes2 : (persistentEntries 2 ⟨2, fileV2, 0x4000, ⟨0x4000, false⟩⟩).map
      PersistentEntry.size = [0x4000, 0x2000] := by
    obtain ⟨bitmap, same, len⟩ :
        ∃ bitmap : List UInt8, replicate 0x4000 0 = bitmap ∧ bitmap.length = 0x4000 :=
      ⟨_, rfl, length_replicate⟩
    rw [fileV2, same]
    simp [persistentEntries, persistentCacheReadEntry, persistentCacheReadEntryV2, fread, len, leValue]
  have small :
      ∀ {entries : List PersistentEntry} {sizes : List Nat}, entries.map PersistentEntry.size = sizes →
      (∀ size ∈ sizes, size ≤ 0x4000) → ∀ entry ∈ entries, entry.size ≤ 0x4000 := by
    rintro entries _ rfl all entry mem
    exact all _ (mem_map_of_mem mem)
  exact ⟨_, rfl, _, opened, sizes3,
    (persistent_entries_backed_iff fileV3 2 _ rfl).mpr (small sizes3 (by decide)), sizes2,
    (persistent_entries_backed_iff fileV2 2 _ opened).mpr (small sizes2 (by decide))⟩

/-- An entry of version 2 for a bitmap of 65 columns and 64 rows. -/
theorem persistent_entry_not_backed : ∃ file, ∃ pc ∈ persistentCacheOpenRead file,
    ∃ entry ∈ persistentEntries 1 pc, ¬entry.Backed := by
  obtain ⟨bitmap, len⟩ : ∃ bitmap : List UInt8, bitmap.length = 0x4000 := ⟨_, @length_replicate _ _ 0⟩
  refine ⟨[0, 0, 0, 0, 0, 0, 0, 0, 65, 0, 64, 0, 0, 0, 0, 0, 0, 0, 0, 0] ++ bitmap, _, rfl,
    ⟨65, 64, 16640, bitmap, 0x4000⟩, ?_, fun backed => absurd backed.1 (show ¬16640 ≤ 0x4000 by decide)⟩
  have all : bitmap.take 0x4000 = bitmap := take_of_length_le (by omega)
  simp [persistentEntries, persistentCacheReadEntry, persistentCacheReadEntryV2,
    fread, len, all, leValue]

end KvmServer.Cache
