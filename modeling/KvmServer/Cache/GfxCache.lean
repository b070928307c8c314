import KvmServer.Cache.Persistent
import KvmServer.Lib.Memory

/-! # Export and import of cache entries (`gdi/gfx.c`)

All entries have the format BGRX32.  `gdi_GfxCacheEntryNew` aligns their rows to 16 bytes. -/

namespace KvmServer.Cache
open Lib List

def gfxAlignScanline (widthInBytes alignment : Nat) : Nat :=
  let pad := alignment - widthInBytes % alignment
  if alignment ≠ pad then widthInBytes + pad else widthInBytes

structure GfxCacheEntry where
  (cacheKey width height : Nat)
  data : Mem UInt8

def GfxCacheEntry.scanline (entry : GfxCacheEntry) : Nat := gfxAlignScanline (entry.width * 4) 16

/-- `PERSISTENT_CACHE_ENTRY` as it is exported: `data` is that of the cache. -/
structure CacheExport where
  (key64 width height size : Nat)
  data : Mem UInt8

def gdiExportCacheEntry (entry : GfxCacheEntry) : CacheExport :=
  ⟨entry.cacheKey, min 65535 entry.width, min 65535 entry.height,
    entry.width * entry.height * 4 % 2 ^ 32, entry.data⟩

def copyRows (dst src : Mem UInt8) (nDstStep nSrcStep size : Nat) : Nat → Mem UInt8
  | 0 => dst
  | y + 1 =>
    ⟨fun i => if y * nDstStep ≤ i ∧ i < y * nDstStep + size then src (y * nSrcStep + (i - y * nDstStep))
      else copyRows dst src nDstStep nSrcStep size y i⟩

/-- A step of 0 stands for rows without a gap. -/
def gdiImportCacheEntry (key64 width height : Nat) (data : Mem UInt8) : GfxCacheEntry :=
  let entry : GfxCacheEntry := ⟨key64, width, height, ⟨fun _ => 0⟩⟩
  { entry with data := copyRows entry.data data entry.scanline (width * 4) (width * 4) height }

/-- What `persistent_cache_open` and `persistent_cache_write_entry_v3` write. -/
def persistentFileV3 (entry : CacheExport) : Option (List UInt8) :=
  if entry.size = 0 then none
  else some ([0x52, 0x44, 0x50, 0x38, 0x62, 0x6D, 0x70, 0, 6, 0, 0, 0] ++
    (leBytes 8 entry.key64 ++ leBytes 2 entry.width ++
    leBytes 2 entry.height ++ block entry.data 0 entry.size))

def persistentRestore (entry : CacheExport) : Option PersistentEntry := do
  let file ← persistentFileV3 entry
  let persistent ← persistentCacheOpenRead file
  (persistentCacheReadEntry persistent).2

def SamePixels (a b : GfxCacheEntry) : Prop :=
  b.width = a.width ∧ b.height = a.height ∧
    ∀ x y, x < a.width * 4 → y < a.height → b.data (y * b.scanline + x) = a.data (y * a.scanline + x)

/-- Directly and through a file; what is read belongs to the entry. -/
structure RoundTrips (entry : GfxCacheEntry) : Prop where
  direct : SamePixels entry (gdiImportCacheEntry entry.cacheKey entry.width entry.height entry.data)
  stored : ∃ got, persistentRestore (gdiExportCacheEntry entry) = some got ∧
    SamePixels entry (gdiImportCacheEntry entry.cacheKey got.width got.height (listMem 0 got.data)) ∧
      got.width * 4 * got.height ≤ got.data.length
  inside : entry.width * 4 * entry.height ≤ entry.scanline * entry.height ∧
    (gdiExportCacheEntry entry).size ≤ entry.scanline * entry.height

variable {dst src data : Mem UInt8} {step step' size n x y w h key : Nat}

theorem copyRows_read (le : size ≤ step) (inRow : x < size) (row : y < n) :
    copyRows dst src step step' size n (y * step + x) = src (y * step' + x) := by
  induction n with
  | zero => exact absurd row (Nat.not_lt_zero y)
  | succ n ih =>
    simp only [copyRows]
    by_cases last : y = n
    · rw [last, if_pos (by omega), Nat.add_sub_cancel_left]
    · have above := Nat.mul_le_mul_right step (show y + 1 ≤ n by omega)
      rw [Nat.succ_mul] at above
      rw [if_neg (by omega), ih (by omega)]

theorem scanline_eq (w : Nat) : gfxAlignScanline (w * 4) 16 = (w + 3) / 4 * 16 := by
  unfold gfxAlignScanline
  dsimp only
  split <;> omega

/-- Rows without a gap are those of the entry where there is no gap, or only one row. -/
theorem import_same (gap : w % 4 = 0 ∨ h = 1) (same : ∀ i, i < w * 4 * h → src i = data i) :
    SamePixels ⟨key, w, h, data⟩ (gdiImportCacheEntry key w h src) := by
  refine ⟨rfl, rfl, fun x y inRow row => ?_⟩
  simp only [gdiImportCacheEntry, GfxCacheEntry.scanline, scanline_eq] at inRow row ⊢
  have below := Nat.mul_le_mul_right (w * 4) (show y + 1 ≤ h from row)
  rw [Nat.succ_mul, mul_comm h] at below
  rw [copyRows_read (by omega) inRow row, same _ (by omega)]
  obtain _ | rfl := gap
  · rw [show (w + 3) / 4 * 16 = w * 4 by omega]
  · rw [show y = 0 by omega, zero_mul, zero_mul]

theorem getD_block (lt : x < n) : (block data y n).getD x 0 = data (y + x) := by
  induction n generalizing x y with
  | zero => exact absurd lt (Nat.not_lt_zero x)
  | succ n ih =>
    cases x with
    | zero => rfl
    | succ x => rw [block, getD_cons_succ, ih (by omega), add_right_comm]; rfl

/-- The buffer of the reader never grows. -/
theorem readEntryV3_record (fits : w < 2 ^ 16 ∧ h < 2 ^ 16) (rest : List UInt8) :
    (persistentCacheReadEntryV3 ⟨3, leBytes 8 key ++ leBytes 2 w ++ leBytes 2 h ++ rest,
      0x4000, ⟨0x4000, false⟩⟩).2 =
      if 4 * w * h ≤ 0x4000 then (fread (4 * w * h) rest).1.map fun data =>
      ⟨w, h, 4 * w * h, data, 0x4000⟩ else none := by
  have head : fread 12 (leBytes 8 key ++ leBytes 2 w ++ leBytes 2 h ++ rest) =
      (some (leBytes 8 key ++ leBytes 2 w ++ leBytes 2 h), rest) := by
    unfold fread
    rw [if_neg (by decide), if_pos (by simp; omega), take_left' (by simp), drop_left' (by simp)]
  have width : leValue ((leBytes 8 key ++ leBytes 2 w ++ leBytes 2 h).drop 8 |>.take 2) = w := by
    rw [append_assoc, drop_left' (leBytes_length _ _), take_left' (leBytes_length _ _),
      leValue_leBytes_of_lt fits.1]
  have height : leValue ((leBytes 8 key ++ leBytes 2 w ++ leBytes 2 h).drop 10 |>.take 2) = h := by
    rw [drop_left' (by simp), take_of_length_le (by simp), leValue_leBytes_of_lt fits.2]
  simp only [persistentCacheReadEntryV3, head, width, height]
  by_cases small : 4 * w * h ≤ 0x4000
  · rw [if_neg (by omega), if_neg (show ¬4 * w * h > 0x4000 by omega), if_pos small]
    cases fread (4 * w * h) rest with
    | mk got fp => cases got <;> rfl
  · rw [if_neg small, if_pos (show 4 * w * h > 0x4000 by omega)]
    split <;> rfl

theorem persistentRestore_eq (fits : w < 2 ^ 16 ∧ h < 2 ^ 16) (pos : 0 < 4 * w * h) :
    persistentRestore (gdiExportCacheEntry ⟨key, w, h, data⟩) = if 4 * w * h ≤ 0x4000 then
      some ⟨w, h, 4 * w * h, block data 0 (4 * w * h), 0x4000⟩ else none := by
  have size : w * h * 4 = 4 * w * h := by rw [mul_comm, mul_assoc]
  simp only [persistentRestore, gdiExportCacheEntry, persistentFileV3,
    min_eq_right (show w ≤ 65535 by omega), min_eq_right (show h ≤ 65535 by omega), size]
  split
  · -- the size is a multiple of 2 ^ 32, and too large for the reader
    rw [if_neg (by omega)]
    rfl
  have opened (rest : List UInt8) :
      persistentCacheOpenRead ([0x52, 0x44, 0x50, 0x38, 0x62, 0x6D, 0x70, 0, 6, 0, 0, 0] ++ rest) =
      some ⟨3, rest, 0x4000, ⟨0x4000, false⟩⟩ := by
    simp [persistentCacheOpenRead]
  simp only [Option.bind_eq_bind, Option.bind_some, opened]
  rw [persistentCacheReadEntry, if_pos rfl, readEntryV3_record fits]
  split
  · rw [Nat.mod_eq_of_lt (by omega), fread, if_neg (by omega), if_pos (by simp),
      take_of_length_le (by simp)]
    rfl
  · rfl

/-- What is exported is imported again just where no row is padded and the bitmap fits 0x4000
bytes. -/
theorem gfx_cache_round_trip_iff (width height : Nat)
    (dims : 1 ≤ width ∧ width ≤ 65535 ∧ 1 ≤ height ∧ height ≤ 65535) :
    (∀ key data, RoundTrips ⟨key, width, height, data⟩) ↔ (width % 4 = 0 ∨ height = 1) ∧
    4 * width * height ≤ 0x4000 := by
  have pos : 0 < 4 * width * height := Nat.mul_pos (by omega) (by omega)
  have restore (key : Nat) (data : Mem UInt8) :=
    @persistentRestore_eq data width height key (by omega) pos
  constructor
  · intro all
    constructor
    · by_contra gap
      -- the second row is taken from the gap behind the first one
      obtain ⟨-, -, same⟩ := (all 0 ⟨fun i => if i = (width + 3) / 4 * 16 then 1 else 0⟩).direct
      have second := same 0 1 (by dsimp only; omega) (by dsimp only; omega)
      simp only [gdiImportCacheEntry, GfxCacheEntry.scanline, scanline_eq] at second
      rw [copyRows_read (by omega) (by omega) (by omega)] at second
      simp only [one_mul, add_zero, if_true] at second
      rw [if_neg (by omega)] at second
      cases second
    · obtain ⟨_, read, -⟩ := (all 0 ⟨fun _ => 0⟩).stored
      by_contra large
      rw [restore, if_neg large] at read
      cases read
  · rintro ⟨gap, small⟩ key data
    have size : width * height * 4 = width * 4 * height := mul_right_comm _ _ _
    have inside := Nat.mul_le_mul_right height (show width * 4 ≤ (width + 3) / 4 * 16 by omega)
    refine ⟨import_same gap fun _ _ => rfl, ⟨_, by rw [restore, if_pos small], ?_, ?_⟩, ?_⟩
    · refine import_same gap fun i lt => (getD_block (by rwa [mul_comm 4])).trans ?_
      rw [zero_add]
    · simp [mul_comm 4]
    · simp only [GfxCacheEntry.scanline, scanline_eq, gdiExportCacheEntry, size]
      exact ⟨inside, le_trans (Nat.mod_le _ _) inside⟩

/-- An icon of 32 by 32 pixels comes back. -/
theorem gfx_cache_round_trip_icon : RoundTrips ⟨7, 32, 32, ⟨fun i => UInt8.ofNat i⟩⟩ :=
  (gfx_cache_round_trip_iff 32 32 (by decide)).mpr (by decide) _ _

/-- Two rows of one pixel. -/
theorem gfx_cache_not_round_trip : ¬RoundTrips ⟨7, 1, 2, ⟨fun i => if i = 16 then 1 else 0⟩⟩ := by
  intro trip
  obtain ⟨-, -, same⟩ := trip.direct
  exact absurd (same 0 1 (by decide) (by decide)) (by decide)

end KvmServer.Cache
