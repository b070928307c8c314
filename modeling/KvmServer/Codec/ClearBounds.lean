import KvmServer.Codec.Clear

/-! # Where ClearCodec bands are drawn

The pixels that are written are those of the bars a payload describes, up to the first bar that the
clipping tests reject.  The tests compare with `>`, so a bar on the edge is drawn. -/

namespace KvmServer.Codec
open Lib List
variable {α : Type} {fmt : ClearFormats} {visit : VBar → List α × Bool}

def visitAll (visit : VBar → List α × Bool) : List VBar → List α
  | [] => []
  | bar :: bars => (visit bar).1 ++ if (visit bar).2 then visitAll visit bars else []

def listVBar (bar : VBar) : List VBar × Bool := ([bar], true)

theorem visitAll_append (bars bars' : List VBar) : visitAll visit (bars ++ bars') =
      visitAll visit bars ++ if bars.all fun bar => (visit bar).2 then visitAll visit bars' else [] := by
  induction bars with
  | nil => rfl
  | cons bar bars ih =>
    rw [cons_append, visitAll, visitAll, ih, all_cons]
    cases (visit bar).2 with
    | false => simp
    | true => simp [append_assoc]

variable {bar : VBar} {x nYDstRel y : UInt32} {colors : List UInt32} (bandsByteCount : Nat)
  (clear : ClearContext)
  (bytes : List UInt8)

theorem walkBand_list_succ {band : ClearBand} {n i : Nat} {clear clear' : ClearContext}
    {bytes rest : List UInt8} (dec : decodeVBar fmt clear band i bytes = some (clear', bar, rest)) :
    walkBand fmt listVBar band (n + 1) i clear bytes =
    (bar :: (walkBand fmt listVBar band n (i + 1) clear' rest).1,
        (walkBand fmt listVBar band n (i + 1) clear' rest).2) := by
  rw [walkBand, dec]
  rfl

theorem walkBand_eq (band : ClearBand) (n i : Nat) (clear : ClearContext) (bytes : List UInt8) :
    walkBand fmt visit band n i clear bytes =
    (visitAll visit (walkBand fmt listVBar band n i clear bytes).1,
        if (walkBand fmt listVBar band n i clear bytes).1.all fun bar => (visit bar).2 then
          (walkBand fmt listVBar band n i clear bytes).2 else none) := by
  induction n generalizing i clear bytes with
  | zero => rfl
  | succ n ih =>
    cases dec : decodeVBar fmt clear band i bytes with
    | none => simp only [walkBand, dec, visitAll, all_nil, if_true]
    | some res =>
      obtain ⟨clear', bar, rest⟩ := res
      rw [walkBand_list_succ dec]
      simp only [walkBand, dec, visitAll, all_cons, ih (i + 1) clear' rest]
      by_cases going : (visit bar).2 = true
      · simp [going]
      · simp [going]

theorem walkBands_step (suboffset : Nat) : walkBands fmt visit bandsByteCount clear bytes suboffset =
      if suboffset < bandsByteCount then
        match readBand fmt bytes with
        | none => ([], false)
        | some (band, rest) =>
          let bars := walkBand fmt visit band (band.xEnd - band.xStart + 1) 0 clear rest
          match bars.2 with
          | none => (bars.1, false)
          | some (clear', rest') =>
            let others := walkBands fmt visit bandsByteCount clear' rest'
              ((suboffset + (bytes.length - rest'.length)) % 2 ^ 32)
            (bars.1 ++ others.1, others.2)
      else ([], true) := by
  rw [walkBands]
  split
  · split
    next none => rw [none]
    next band rest read =>
      rw [read]
      dsimp only
      split
      next stopped => rw [stopped]
      next clear' rest' walked => rw [walked]
  · rfl

theorem walkBands_eq (suboffset : Nat) : (walkBands fmt visit bandsByteCount clear bytes suboffset).1 =
      visitAll visit (walkBands fmt listVBar bandsByteCount clear bytes suboffset).1 := by
  induction len : bytes.length using Nat.strongRecOn generalizing bytes clear suboffset with
  | _ len' ih =>
    rw [walkBands_step, walkBands_step]
    split
    · cases read : readBand fmt bytes with
      | none => rfl
      | some res =>
        obtain ⟨band, rest⟩ := res
        have lt := readBand_rest fmt read
        dsimp only
        rw [walkBand_eq]
        generalize listed : walkBand fmt listVBar band (band.xEnd - band.xStart + 1) 0 clear rest = bars
        obtain ⟨bars, ending⟩ := bars
        cases ending with
        | none => simp only [ite_self]
        | some st =>
          obtain ⟨clear', rest'⟩ := st
          have rest_le : rest'.length ≤ rest.length := @walkBand_rest fmt _ listVBar clear rest band _ 0
            (clear', rest') (by rw [listed])
          rw [visitAll_append, ← ih rest'.length (by omega) clear' rest' _ rfl]
          by_cases all : (bars.all fun bar => (visit bar).2) = true
          · simp only [all, if_true]
          · simp only [all, if_false, append_nil, Bool.false_eq_true]
    · rfl

/-! ## The edge -/

section
variable (fmt : ClearFormats) (dst : ClearDestination) (bar : VBar)

def columnOf : UInt32 := dst.nXDst + .ofNat bar.xStart + .ofNat bar.i

def rowOf : UInt32 := dst.nYDst + .ofNat bar.yStart

def rowsOf : Nat := if bar.count > dst.nHeight.toNat then dst.nHeight.toNat else bar.count

/-- A bar that passes the clipping tests and covers the column `nDstWidth` or the row `nDstHeight`. -/
def OnEdge : Prop :=
  bar.i < dst.nWidth.toNat ∧ fmt.dstWritable = true ∧ 0 < rowsOf dst bar ∧
    columnOf dst bar ≤ dst.nDstWidth ∧
    rowOf dst bar ≤ dst.nDstHeight ∧
    (columnOf dst bar = dst.nDstWidth ∨ dst.nDstHeight.toNat < (rowOf dst bar).toNat + rowsOf dst bar)

/-- A bar behind the right or below the bottom edge ends the decoding. -/
def Rejected : Prop :=
  bar.i < dst.nWidth.toNat ∧ (dst.nDstWidth < columnOf dst bar ∨
    0 < rowsOf dst bar ∧ (fmt.dstWritable = false ∨ dst.nDstHeight < rowOf dst bar))

def ClearOfEdge : List VBar → Prop
  | [] => True
  | bar :: bars => ¬OnEdge fmt dst bar ∧ (¬Rejected fmt dst bar → ClearOfEdge bars)

def vBars (clear : ClearContext) (bandsByteCount : UInt32) (bytes : List UInt8) : List VBar :=
  if bandsByteCount.toNat ≤
    bytes.length then (walkBands fmt listVBar bandsByteCount.toNat clear bytes 0).1 else []

end

variable {dst : ClearDestination}

def Pixel.Inside (dst : ClearDestination) (pixel : Pixel) : Prop :=
  pixel.x < dst.nDstWidth ∧ pixel.y < dst.nDstHeight

theorem toNat_succ (rel y : UInt32) : (rel + (y + 1)).toNat = ((rel + y).toNat + 1) % 2 ^ 32 := by
  rw [← UInt32.add_assoc, UInt32.toNat_add]
  rfl

theorem drawRows_inside_iff (nYDstRel y : UInt32) (colors : List UInt32) :
    (∀ pixel ∈ (drawRows fmt dst x nYDstRel y colors).1, pixel.Inside dst) ↔
      ¬(fmt.dstWritable = true ∧ 0 < colors.length ∧ nYDstRel + y ≤ dst.nDstHeight ∧
        (¬x < dst.nDstWidth ∨ dst.nDstHeight.toNat < (nYDstRel + y).toNat + colors.length)) := by
  induction colors generalizing y with
  | nil => simp [drawRows]
  | cons _ colors ih =>
    rw [drawRows]
    split
    next =>
      have notHi : ¬nYDstRel + y ≤ dst.nDstHeight := by rwa [UInt32.not_le]
      simp [notHi]
    next hi =>
      rw [UInt32.not_lt] at hi
      cases writable : fmt.dstWritable with
      | false => simp
      | true =>
        rw [Bool.not_true, if_neg Bool.false_ne_true, forall_mem_cons, ih (y + 1)]
        have height := dst.nDstHeight.toNat_lt
        simp only [Pixel.Inside, writable, true_and, hi, length_cons, UInt32.lt_iff_toNat_lt,
          UInt32.le_iff_toNat_le, toNat_succ] at hi ⊢
        by_cases col : x.toNat < dst.nDstWidth.toNat
        · simp only [col, not_true_eq_false, false_or, true_and]
          omega
        · simp [col]

theorem drawRows_completes (writable : fmt.dstWritable = true)
    (fits : (nYDstRel + y).toNat + colors.length ≤ dst.nDstHeight.toNat) :
    (drawRows fmt dst x nYDstRel y colors).2 = true := by
  induction colors generalizing y with
  | nil => rfl
  | cons _ colors ih =>
    rw [length_cons] at fits
    rw [drawRows, if_neg (by rw [UInt32.not_lt, UInt32.le_iff_toNat_le]; omega), writable, Bool.not_true,
      if_neg Bool.false_ne_true]
    apply ih
    rw [toNat_succ]
    omega

theorem drawRows_stops (some : 0 < colors.length)
    (rejected : fmt.dstWritable = false ∨ dst.nDstHeight < nYDstRel + y) :
    (drawRows fmt dst x nYDstRel y colors).2 = false := by
  cases colors with
  | nil => cases some
  | cons _ colors =>
    rw [drawRows]
    split
    · rfl
    next hi =>
      cases rejected with
      | inl notWritable => rw [notWritable]; rfl
      | inr lo => exact absurd lo hi

theorem drawVBar_eq (bar : VBar) : ∃ colors :
    List UInt32, colors.length = rowsOf dst bar ∧ drawVBar fmt dst bar =
      if bar.i < dst.nWidth.toNat then if dst.nDstWidth < columnOf dst bar then ([], false)
        else drawRows fmt dst (columnOf dst bar) (rowOf dst bar) 0 colors
      else ([], true) :=
  ⟨(range (rowsOf dst bar)).map fun y => bar.pixels.getD y 0, by rw [length_map, length_range], rfl⟩

theorem drawVBar_inside_iff (bar : VBar) :
    (∀ pixel ∈ (drawVBar fmt dst bar).1, pixel.Inside dst) ↔ ¬OnEdge fmt dst bar := by
  obtain ⟨_, len, drawn⟩ := @drawVBar_eq fmt dst bar
  rw [drawn, OnEdge]
  split
  next used =>
    split
    next =>
      have notLe : ¬columnOf dst bar ≤ dst.nDstWidth := by rwa [UInt32.not_le]
      simp [notLe]
    next notPast =>
      have le := UInt32.not_lt.mp notPast
      have edge : ¬columnOf dst bar < dst.nDstWidth ↔ columnOf dst bar = dst.nDstWidth := by
        rw [UInt32.not_lt]
        exact ⟨UInt32.le_antisymm le, fun same => same ▸ UInt32.le_refl _⟩
      rw [drawRows_inside_iff, UInt32.add_zero, len, edge]
      simp [used, le]
  next unused => simp [unused]

theorem drawVBar_goes_on_iff (clear : ¬OnEdge fmt dst bar) :
    (drawVBar fmt dst bar).2 = true ↔ ¬Rejected fmt dst bar := by
  obtain ⟨colors, len, drawn⟩ := @drawVBar_eq fmt dst bar
  rw [drawn, Rejected]
  split
  next used =>
    split
    next past => simp [used, past]
    next notPast =>
      by_cases rejected : 0 < rowsOf dst bar ∧ (fmt.dstWritable = false ∨ dst.nDstHeight < rowOf dst bar)
      · rw [drawRows_stops (len ▸ rejected.1) (by rw [UInt32.add_zero]; exact rejected.2)]
        simp [used, rejected]
      have completed : (drawRows fmt dst (columnOf dst bar) (rowOf dst bar) 0 colors).2 = true := by
        cases colors with
        | nil => rfl
        | cons _ colors =>
          -- neither rejected nor on the edge
          rw [length_cons] at len
          have some : 0 < rowsOf dst bar := by omega
          obtain ⟨writable, hi⟩ := not_or.mp (not_and.mp rejected some)
          rw [Bool.not_eq_false] at writable
          apply drawRows_completes writable
          rw [UInt32.add_zero, length_cons, len]
          by_contra beyond
          exact clear ⟨used, writable, some, UInt32.not_lt.mp notPast,
            UInt32.not_lt.mp hi, .inr (not_le.mp beyond)⟩
      simp [completed, notPast, rejected]
  next unused => simp [unused]

theorem visitAll_inside_iff (bars : List VBar) :
    (∀ pixel ∈ visitAll (drawVBar fmt dst) bars, pixel.Inside dst) ↔ ClearOfEdge fmt dst bars := by
  induction bars with
  | nil => simp [visitAll, ClearOfEdge]
  | cons bar bars ih =>
    rw [visitAll, ClearOfEdge, forall_mem_append, drawVBar_inside_iff]
    refine and_congr_right fun clear => ?_
    rw [← drawVBar_goes_on_iff clear, ← ih]
    by_cases going : (drawVBar fmt dst bar).2 = true
    · simp [going]
    · simp [going]

/-- Every pixel is written inside of the destination exactly if no bar lies on its edge. -/
theorem clear_bands_inside_iff (fmt : ClearFormats) (dst : ClearDestination) (clear : ClearContext)
    (bandsByteCount : UInt32) (bytes : List UInt8) :
    (∀ pixel ∈ (clearDecompressBandsData fmt dst clear bandsByteCount bytes).1,
        pixel.x < dst.nDstWidth ∧ pixel.y < dst.nDstHeight) ↔
      ClearOfEdge fmt dst (vBars fmt clear bandsByteCount bytes) := by
  rw [← visitAll_inside_iff, clearDecompressBandsData, vBars]
  split
  · rw [walkBands_eq]
    rfl
  · rfl

def plainFormats : ClearFormats :=
  { getColor := fun r g b => r.toUInt32 <<< 16 ||| g.toUInt32 <<< 8 ||| b.toUInt32
    convertColor := id
    writable := true
    dstWritable := true }

def emptyClearContext : ClearContext :=
  { vBarStorageCursor := 0
    vBarStorage := fun _ => ⟨0, 0, []⟩
    shortVBarStorageCursor := 0
    shortVBarStorage := fun _ => ⟨0, 0, []⟩ }

/-- An image of one pixel, and a band of one bar that begins at its right edge. -/
theorem clear_bands_write_outside :
    ¬ ∀ pixel ∈ (clearDecompressBandsData plainFormats ⟨1, 1, 0, 0, 1, 1⟩ emptyClearContext 13
        [1, 0, 1, 0, 0, 0, 0, 0, 3, 2, 1, 0, 0]).1, pixel.x < 1 ∧ pixel.y < 1 := by
  decide +kernel

end KvmServer.Codec
