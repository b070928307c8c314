import KvmServer.Cache.Glyph
import KvmServer.Lib.Loop
import KvmServer.Lib.Session

/-! # When glyph orders are safe

An order meets no fault exactly if its background rectangle fits into 16 bits and every item of its
text that it comes to is whole and names an entry that the cache has. -/

namespace KvmServer.Cache
open KvmServer.Lib Relation List
variable {rules : GlyphRules} {text : GlyphText}

/-! ## Single steps -/

def OffsetFits (rules : GlyphRules) (text : GlyphText) (bytes : List UInt8) : Prop :=
  text.hasOffsets = true →
    ∃ offset rest, bytes = offset :: rest ∧
      (rules.formats = true → 0x80 ≤ offset.toNat → 2 ≤ rest.length)

def afterOffset (text : GlyphText) (bytes : List UInt8) : List UInt8 :=
  if text.hasOffsets then
    if 0x80 ≤ (bytes.headD 0).toNat ∧ 3 ≤ bytes.length then bytes.drop 3 else bytes.drop 1
  else bytes

theorem afterOffset_length_le (text : GlyphText) (bytes : List UInt8) :
    (afterOffset text bytes).length ≤ bytes.length := by
  unfold afterOffset
  split
  · split
    iterate 2 exact (drop_sublist _ _).length_le
  · exact le_rfl

variable {offset id size : UInt8} {rest : List UInt8} {bits fuel width : Nat}
  {x : Int} {result : Option GlyphPen}
  {edges : GlyphEdges}

theorem afterOffset_long {low high : UInt8} (offs : text.hasOffsets = true)
    (long : 0x80 ≤ offset.toNat) : afterOffset text (offset :: low :: high :: rest) = rest := by
  rw [afterOffset, if_pos offs, if_pos ⟨long, by simp⟩]
  rfl

theorem afterOffset_short (offs : text.hasOffsets = true)
    (short : 0x80 ≤ offset.toNat → ¬2 ≤ rest.length) : afterOffset text (offset :: rest) = rest := by
  rw [afterOffset, if_pos offs, if_neg]
  · rfl
  rintro ⟨long, three⟩
  rw [length_cons] at three
  exact short long (by omega)

theorem castSigned_ok (low : -2 ^ (bits - 1) ≤ x) (high : x < 2 ^ (bits - 1)) :
    castSigned bits x = .ok x :=
  if_pos ⟨low, high⟩

theorem movePen_ok (text : GlyphText) {offset : Nat} (lt : offset < 2 ^ 16) (pen : GlyphPen) :
    ∃ pen', movePen text offset pen = .ok pen' := by
  rw [movePen, castSigned_ok (by omega) (by omega)]
  exact ⟨_, rfl⟩

theorem offset_lt (low high : UInt8) : low.toNat ||| high.toNat <<< 8 < 2 ^ 16 := by
  have ltLow := low.toNat_lt
  have ltHigh := high.toNat_lt
  rw [or_shiftLeft_eq _ ltLow]
  omega

variable {bytes : List UInt8} {pen : GlyphPen} {op : UInt8}

theorem short_cases (short : ¬2 ≤ bytes.length) : bytes = [] ∨ ∃ only, bytes = [only] := by
  match bytes with
  | [] => exact .inl rfl
  | [only] => exact .inr ⟨only, rfl⟩
  | _ :: _ :: _ => exact absurd (by simp) short

theorem updateGlyphOffset_ok (fits : OffsetFits rules text bytes) (pen : GlyphPen) :
    ∃ pen', updateGlyphOffset rules text bytes pen = .ok (afterOffset text bytes, pen') := by
  unfold updateGlyphOffset
  split
  · next offs =>
    obtain ⟨offset, rest, rfl, all⟩ := fits offs
    have lt := offset.toNat_lt
    obtain ⟨pen', moved⟩ := movePen_ok text (by omega : offset.toNat < 2 ^ 16) pen
    simp only [highBit_ne_zero_iff]
    by_cases long : 0x80 ≤ offset.toNat
    · by_cases two : 2 ≤ rest.length
      · match rest with
        | low :: high :: rest =>
          obtain ⟨pen', moved⟩ := movePen_ok text (offset_lt low high) pen
          rw [if_pos long, afterOffset_long offs long]
          simp only [moved, ok_bind]
          exact ⟨pen', rfl⟩
      -- the warning is printed
      have silent : rules.formats = false := Bool.eq_false_iff.mpr fun formats => two (all formats long)
      rw [if_pos long, afterOffset_short offs fun _ => two]
      obtain rfl | ⟨only, rfl⟩ := short_cases two
      all_goals
        simp only [silent, moved, ok_bind]
        exact ⟨pen', rfl⟩
    · rw [if_neg long, afterOffset_short offs (absurd · long), moved]
      exact ⟨pen', rfl⟩
  · next none =>
    refine ⟨pen, ?_⟩
    rw [afterOffset, if_neg none]

theorem updateGlyphOffset_fits {result : List UInt8 × GlyphPen}
    (run : updateGlyphOffset rules text bytes pen = .ok result) : OffsetFits rules text bytes := by
  intro offs
  unfold updateGlyphOffset at run
  rw [if_pos offs] at run
  cases bytes with
  | nil => cases run
  | cons offset rest =>
    refine ⟨offset, rest, rfl, ?_⟩
    intro formats long
    by_contra short
    simp only [highBit_ne_zero_iff, if_pos long, formats, if_true] at run
    obtain rfl | ⟨only, rfl⟩ := short_cases short
    all_goals cases run

def Stored (text : GlyphText) (cache : GlyphCache) (op : UInt8) : Prop :=
  text.cacheId < glyphCacheCount ∧ op.toNat < cache.number text.cacheId ∧
    (cache.entries text.cacheId op.toNat).isSome = true

/-- It is not the entry after the last one, which is the only one that `glyph_cache_get` lets through. -/
def InRange (text : GlyphText) (cache : GlyphCache) (op : UInt8) : Prop :=
  text.cacheId < glyphCacheCount → op.toNat ≠ cache.number text.cacheId

theorem glyphCacheGet_ok {cache : GlyphCache} (inRange : InRange text cache op) :
    ∃ glyph, glyphCacheGet cache text.cacheId op.toNat = .ok glyph ∧
    (glyph.isSome = true ↔ Stored text cache op) := by
  unfold glyphCacheGet Stored
  by_cases id : text.cacheId < glyphCacheCount
  · have entry := inRange id
    rw [if_neg (by omega)]
    by_cases lo : op.toNat < cache.number text.cacheId
    · rw [if_neg (by omega), if_pos lo]
      exact ⟨_, rfl, by simp [id, lo]⟩
    rw [if_pos (by omega)]
    exact ⟨none, rfl, by simp [lo]⟩
  · rw [if_pos (by omega)]
    exact ⟨none, rfl, by simp [id]⟩

theorem glyphCacheGet_inRange {cache : GlyphCache} {glyph : Option RdpGlyph}
    (run : glyphCacheGet cache text.cacheId op.toNat = .ok glyph) : InRange text cache op := by
  intro _ _
  unfold glyphCacheGet at run
  rw [if_neg (by omega), if_neg (by omega), if_neg (by omega)] at run
  cases run

variable {callbacks : GlyphCallbacks} {bound : GlyphArea} {cache : GlyphCache}

theorem processGlyph_ok {op : UInt8} (inRange : InRange text cache op) (pen : GlyphPen) :
    ∃ result, updateProcessGlyph callbacks text bound cache op.toNat pen = .ok result ∧
      (result.isSome = true → Stored text cache op) ∧
      ((∀ i draw, callbacks.draw i draw = true) → Stored text cache op → result.isSome = true) := by
  obtain ⟨glyph, got, put⟩ := glyphCacheGet_ok inRange
  unfold updateProcessGlyph
  rw [got, ok_bind]
  cases glyph with
  | none => exact ⟨none, rfl, nofun, fun _ there => absurd (put.mpr there) (by simp)⟩
  | some glyph =>
    have ltX := glyph.cx.toNat_lt
    have ltY := glyph.cy.toNat_lt
    have there := put.mp rfl
    dsimp only
    rw [castSigned_ok (by omega) (by omega), ok_bind, castSigned_ok (by omega) (by omega), ok_bind]
    split
    · next rejected =>
      refine ⟨none, rfl, fun _ => there, fun draws _ => ?_⟩
      rw [draws] at rejected
      exact absurd rfl rejected.2
    · exact ⟨_, rfl, fun _ => there, fun _ _ => rfl⟩

theorem processGlyph_inRange
    (run : updateProcessGlyph callbacks text bound cache op.toNat pen = .ok result) :
    InRange text cache op := by
  unfold updateProcessGlyph at run
  cases got : glyphCacheGet cache text.cacheId op.toNat with
  | error _ =>
    rw [got] at run
    cases run
  | ok _ => exact glyphCacheGet_inRange got

def glyphItem {β : Type} (rules : GlyphRules) (callbacks : GlyphCallbacks)
    (text : GlyphText) (bound : GlyphArea)
    (cache : GlyphCache) (op : UInt8) (bytes : List UInt8) (pen : GlyphPen)
    (next : List UInt8 → Option GlyphPen → Except GlyphFault β) : Except GlyphFault β :=
  updateGlyphOffset rules text bytes pen >>= fun read =>
    updateProcessGlyph callbacks text bound cache op.toNat read.2 >>= next read.1

section Item
variable {β : Type} {op : UInt8} {bs : List UInt8}
  {next : List UInt8 → Option GlyphPen → Except GlyphFault β}

theorem glyphItem_ok (fits : OffsetFits rules text bs) (inRange : InRange text cache op)
    (pen : GlyphPen) :
    ∃ result,
    glyphItem rules callbacks text bound cache op bs pen next = next (afterOffset text bs) result ∧
      (result.isSome = true → Stored text cache op) ∧
      ((∀ i draw, callbacks.draw i draw = true) → Stored text cache op → result.isSome = true) := by
  obtain ⟨pen', offset⟩ := updateGlyphOffset_ok fits pen
  obtain ⟨result, drawn, only, all⟩ := @processGlyph_ok text callbacks bound cache op inRange pen'
  refine ⟨result, ?_, only, all⟩
  rw [glyphItem, offset, ok_bind, drawn, ok_bind]

theorem glyphItem_run {last : β}
    (run : glyphItem rules callbacks text bound cache op bs pen next = .ok last) :
    OffsetFits rules text bs ∧ InRange text cache op := by
  unfold glyphItem at run
  cases offset : updateGlyphOffset rules text bs pen with
  | error fault =>
    rw [offset] at run
    cases run
  | ok read =>
    rw [offset, ok_bind] at run
    cases drawn : updateProcessGlyph callbacks text bound cache op.toNat read.2 with
    | error fault =>
      rw [drawn] at run
      cases run
    | ok _ => exact ⟨updateGlyphOffset_fits offset, processGlyph_inRange drawn⟩

end Item

/-! ## Fragments -/

def FragmentItem (rules : GlyphRules) (text : GlyphText) (cache : GlyphCache) : List UInt8 → Prop
  | [] => True
  | op :: bytes => OffsetFits rules text bytes ∧ InRange text cache op

inductive FragmentStep (text : GlyphText) (cache : GlyphCache) : List UInt8 → List UInt8 → Prop where
  | glyph {op : UInt8} {bytes : List UInt8} (stored : Stored text cache op) :
      FragmentStep text cache (op :: bytes) (afterOffset text bytes)

def FragmentSafe (rules : GlyphRules) (text : GlyphText) (cache : GlyphCache)
    (fragment : List UInt8) : Prop :=
  Always (FragmentStep text cache) (FragmentItem rules text cache) fragment

def FragmentPasses (text : GlyphText) (cache : GlyphCache) (fragment : List UInt8) : Prop :=
  ReflTransGen (FragmentStep text cache) fragment []

theorem fragmentPasses_cons :
    FragmentPasses text cache (op :: bytes) ↔ Stored text cache op ∧
    FragmentPasses text cache (afterOffset text bytes) := by
  constructor
  · intro pass
    obtain fin | ⟨_, step, rest⟩ := pass.cases_head
    · cases fin
    · cases step with
      | glyph put => exact ⟨put, rest⟩
  rintro ⟨put, rest⟩
  exact .head (.glyph put) rest

theorem fragmentSafe_nil : FragmentSafe rules text cache [] := .intro trivial nofun

theorem glyphFragmentLoop_cons (fuel : Nat) (op : UInt8) (bytes : List UInt8) (pen : GlyphPen) :
    glyphFragmentLoop rules callbacks text bound cache (fuel + 1) (op :: bytes) pen =
      glyphItem rules callbacks text bound cache op bytes pen fun bytes result =>
        match result with
        | none => .ok none
        | some pen => glyphFragmentLoop rules callbacks text bound cache fuel bytes pen := rfl

theorem glyphFragmentLoop_ok {fuel : Nat} {bytes : List UInt8} (room : bytes.length ≤ fuel)
    (safe : FragmentSafe rules text cache bytes) (pen : GlyphPen) :
    ∃ result, glyphFragmentLoop rules callbacks text bound cache fuel bytes pen = .ok result ∧
      (result.isSome = true → FragmentPasses text cache bytes) ∧
      ((∀ i draw, callbacks.draw i draw = true) → FragmentPasses text cache bytes →
        result.isSome = true) := by
  induction fuel generalizing bytes pen with
  | zero =>
    cases length_eq_zero_iff.mp (Nat.le_zero.mp room)
    exact ⟨some pen, rfl, fun _ => .refl, fun _ _ => rfl⟩
  | succ fuel ih =>
    cases bytes with
    | nil => exact ⟨some pen, rfl, fun _ => .refl, fun _ _ => rfl⟩
    | cons _ bytes =>
      obtain ⟨fits, inRange⟩ := safe.here
      have fewer := afterOffset_length_le text bytes
      rw [length_cons] at room
      rw [glyphFragmentLoop_cons, fragmentPasses_cons]
      obtain ⟨result, item, only, all⟩ := glyphItem_ok fits inRange pen
      rw [item]
      cases result with
      | none =>
        refine ⟨none, rfl, nofun, ?_⟩
        rintro draws ⟨put, -⟩
        exact absurd (all draws put) (by simp)
      | some pen' =>
        have put := only rfl
        obtain ⟨last, rest, pass, complete⟩ := ih (by omega) (safe.next (.glyph put)) pen'
        exact ⟨last, rest, fun some => ⟨put, pass some⟩, fun draws both => complete draws both.2⟩

theorem glyphFragmentLoop_safe (draws : ∀ i draw, callbacks.draw i draw = true)
    (run : glyphFragmentLoop rules callbacks text bound cache fuel bytes pen = .ok result) :
    FragmentSafe rules text cache bytes := by
  induction fuel generalizing bytes pen with
  | zero =>
    cases bytes with
    | nil => exact fragmentSafe_nil
    | cons op bytes => cases run
  | succ fuel ih =>
    cases bytes with
    | nil => exact fragmentSafe_nil
    | cons op bytes =>
      rw [glyphFragmentLoop_cons] at run
      have here := glyphItem_run run
      apply Always.intro
      · exact here
      intro _ step
      cases step with
      | glyph put =>
        obtain ⟨result, item, -, all⟩ := glyphItem_ok here.1 here.2 pen
        obtain ⟨_, rfl⟩ := Option.isSome_iff_exists.mp (all draws put)
        exact ih (item.symm.trans run)

/-! ## Texts -/

def keepFragment (text : GlyphText) (cache : GlyphCache) (id size : UInt8) : GlyphCache :=
  if size = 0 then cache
  else { cache with fragments := fun i => if i = id then some (text.data.take size.toNat)
    else cache.fragments i }

theorem fragmentPut_ok (short : size.toNat ≤ text.copyLimit rules) :
    glyphCacheFragmentPut rules text cache id size = .ok (keepFragment text cache id size) := by
  rw [glyphCacheFragmentPut, if_pos short, keepFragment]
  split
  · rfl
  · rfl

theorem fragmentPut_le {cache' : GlyphCache}
    (run : glyphCacheFragmentPut rules text cache id size = .ok cache') :
    size.toNat ≤ text.copyLimit rules := by
  unfold glyphCacheFragmentPut at run
  split at run
  · next none =>
    rw [none]
    exact Nat.zero_le _
  split at run
  · assumption
  · cases run

def TextItem (rules : GlyphRules) (text : GlyphText) : GlyphCache × List UInt8 → Prop
  | (_, []) => True
  | (cache, op :: bytes) =>
    if op = GLYPH_FRAGMENT_USE then
      ∀ id rest fragment, bytes = id :: rest → cache.fragments id = some fragment →
        FragmentSafe rules text cache fragment
    else if op = GLYPH_FRAGMENT_ADD then ∀ id size rest, bytes = id :: size :: rest →
      size.toNat ≤ text.copyLimit rules
    else OffsetFits rules text bytes ∧ InRange text cache op

/-- What leads to the next item: a fragment that passes, a fragment that is kept, or a glyph that is
in the cache. -/
inductive TextStep (text : GlyphText) : GlyphCache × List UInt8 → GlyphCache × List UInt8 → Prop where
  | use {cache : GlyphCache} {id : UInt8} {bytes fragment : List UInt8}
    (kept : cache.fragments id = some fragment)
      (passes : FragmentPasses text cache fragment) :
      TextStep text (cache, GLYPH_FRAGMENT_USE :: id :: bytes) (cache, bytes)
  | add {cache : GlyphCache} {id size : UInt8} {bytes : List UInt8} :
      TextStep text (cache, GLYPH_FRAGMENT_ADD :: id :: size :: bytes)
        (keepFragment text cache id size, bytes)
  | glyph {cache : GlyphCache} {op : UInt8} {bytes : List UInt8} (use : op ≠ GLYPH_FRAGMENT_USE)
      (add : op ≠ GLYPH_FRAGMENT_ADD) (stored : Stored text cache op) :
      TextStep text (cache, op :: bytes) (cache, afterOffset text bytes)

def TextSafe (rules : GlyphRules) (text : GlyphText) (cache : GlyphCache) (bytes : List UInt8) : Prop :=
  Always (TextStep text) (TextItem rules text) (cache, bytes)

theorem textSafe_nil : TextSafe rules text cache [] := .intro trivial nofun

def glyphUse (rules : GlyphRules) (callbacks : GlyphCallbacks) (text : GlyphText)
    (bound : GlyphArea) (cache : GlyphCache)
    (id : UInt8) (pen : GlyphPen) (next : GlyphPen → Except GlyphFault (Bool × GlyphCache)) :
    Except GlyphFault (Bool × GlyphCache) :=
  match cache.fragments id with
  | none => .ok (false, cache)
  | some fragment =>
    glyphFragmentLoop rules callbacks text bound cache fragment.length fragment pen >>= fun result =>
      match result with
      | none => .ok (false, cache)
      | some pen => next pen

theorem glyphTextLoop_add (fuel : Nat) (id size : UInt8) (bytes : List UInt8) (pen : GlyphPen) :
    glyphTextLoop rules callbacks text bound (fuel + 1) cache
    (GLYPH_FRAGMENT_ADD :: id :: size :: bytes) pen =
      (glyphCacheFragmentPut rules text cache id size >>= fun cache =>
        glyphTextLoop rules callbacks text bound fuel cache bytes pen) := rfl

theorem glyphTextLoop_glyph (use : op ≠ GLYPH_FRAGMENT_USE) (add : op ≠ GLYPH_FRAGMENT_ADD) (fuel : Nat)
    (bytes : List UInt8) (pen : GlyphPen) :
    glyphTextLoop rules callbacks text bound (fuel + 1) cache (op :: bytes) pen =
      glyphItem rules callbacks text bound cache op bytes pen fun bytes result =>
        match result with
        | none => .ok (false, cache)
        | some pen => glyphTextLoop rules callbacks text bound fuel cache bytes pen := by
  simp only [glyphTextLoop, if_neg use, if_neg add]
  rfl

section Use
variable {id : UInt8} {next : GlyphPen → Except GlyphFault (Bool × GlyphCache)}

theorem glyphUse_ok
    (safe : ∀ fragment, cache.fragments id = some fragment → FragmentSafe rules text cache fragment)
    (later : ∀ fragment pen, cache.fragments id = some fragment → FragmentPasses text cache fragment →
      ∃ result, next pen = .ok result) (pen : GlyphPen) :
    ∃ result, glyphUse rules callbacks text bound cache id pen next = .ok result := by
  unfold glyphUse
  cases kept : cache.fragments id with
  | none => exact ⟨_, rfl⟩
  | some fragment =>
    obtain ⟨result, run, pass, -⟩ := @glyphFragmentLoop_ok rules text callbacks bound cache _ _ le_rfl
      (safe fragment kept) pen
    simp only [run, ok_bind]
    cases result with
    | none => exact ⟨_, rfl⟩
    | some pen' => exact later fragment pen' kept (pass rfl)

theorem glyphUse_run (draws : ∀ i draw, callbacks.draw i draw = true) {last : Bool × GlyphCache}
    (run : glyphUse rules callbacks text bound cache id pen next = .ok last) {fragment : List UInt8}
    (kept : cache.fragments id = some fragment) :
    FragmentSafe rules text cache fragment ∧
    (FragmentPasses text cache fragment → ∃ pen', next pen' = .ok last) := by
  unfold glyphUse at run
  simp only [kept] at run
  cases inner : glyphFragmentLoop rules callbacks text bound cache fragment.length fragment pen with
  | error _ =>
    rw [inner] at run
    cases run
  | ok _ =>
    have safe := glyphFragmentLoop_safe draws inner
    refine ⟨safe, fun pass => ?_⟩
    obtain ⟨_, again, -, all⟩ :=
      @glyphFragmentLoop_ok rules text callbacks bound cache _ _ le_rfl safe pen
    cases inner.symm.trans again
    obtain ⟨pen', rfl⟩ := Option.isSome_iff_exists.mp (all draws pass)
    rw [inner, ok_bind] at run
    exact ⟨pen', run⟩

end Use

theorem op_cases {P : UInt8 → Prop} (use : P GLYPH_FRAGMENT_USE) (add : P GLYPH_FRAGMENT_ADD)
    (glyph : ∀ op, op ≠ GLYPH_FRAGMENT_USE → op ≠ GLYPH_FRAGMENT_ADD → P op) (op : UInt8) : P op := by
  by_cases isUse : op = GLYPH_FRAGMENT_USE
  · exact isUse ▸ use
  by_cases isAdd : op = GLYPH_FRAGMENT_ADD
  · exact isAdd ▸ add
  · exact glyph op isUse isAdd

/-- A safe text is drawn to its end. -/
theorem glyphTextLoop_ok {fuel : Nat} {bytes : List UInt8} (room : bytes.length ≤ fuel)
    (safe : TextSafe rules text cache bytes) (pen : GlyphPen) :
    ∃ result, glyphTextLoop rules callbacks text bound fuel cache bytes pen = .ok result := by
  induction fuel generalizing cache bytes pen with
  | zero =>
    cases length_eq_zero_iff.mp (Nat.le_zero.mp room)
    exact ⟨_, rfl⟩
  | succ fuel ih =>
    match bytes with
    | [] => exact ⟨_, rfl⟩
    | op :: bytes =>
      have here := safe.here
      rw [length_cons] at room
      induction op using op_cases with
      | use =>
        match bytes with
        | [] => exact ⟨_, rfl⟩
        | id :: bytes =>
          rw [length_cons] at room
          apply glyphUse_ok
          · exact fun fragment kept => here id bytes fragment rfl kept
          · exact fun fragment pen' kept pass => ih (by omega) (safe.next (.use kept pass)) pen'
      | add =>
        match bytes with
        | [] => exact ⟨_, rfl⟩
        | [_] => exact ⟨_, rfl⟩
        | id :: size :: bytes =>
          rw [length_cons, length_cons] at room
          rw [glyphTextLoop_add, fragmentPut_ok (here id size bytes rfl), ok_bind]
          exact ih (by omega) (safe.next .add) pen
      | glyph op use add =>
        rw [TextItem, if_neg use, if_neg add] at here
        have fewer := afterOffset_length_le text bytes
        rw [glyphTextLoop_glyph use add]
        obtain ⟨result, item, only, -⟩ := glyphItem_ok here.1 here.2 pen
        rw [item]
        cases result with
        | none => exact ⟨_, rfl⟩
        | some pen' => exact ih (by omega) (safe.next (.glyph use add (only rfl))) pen'

/-- A run that ends has read only inside the text and the cache. -/
theorem glyphTextLoop_safe (draws : ∀ i draw, callbacks.draw i draw = true) {result : Bool × GlyphCache}
    (run : glyphTextLoop rules callbacks text bound fuel cache bytes pen = .ok result) :
    TextSafe rules text cache bytes := by
  induction fuel generalizing cache bytes pen with
  | zero =>
    cases bytes with
    | nil => exact textSafe_nil
    | cons op bytes => cases run
  | succ fuel ih =>
    cases bytes with
    | nil => exact textSafe_nil
    | cons op bytes =>
      induction op using op_cases with
      | use =>
        apply Always.intro
        · rintro id rest _ rfl kept
          exact (glyphUse_run draws run kept).1
        intro next step
        cases step with
        | use kept pass =>
          obtain ⟨pen', rest⟩ := (glyphUse_run draws run kept).2 pass
          exact ih rest
        | glyph use _ _ => exact absurd rfl use
      | add =>
        -- what is put is no longer than the text
        have short : ∀ id size rest, bytes = id :: size :: rest → size.toNat ≤ text.copyLimit rules := by
          rintro id size rest rfl
          rw [glyphTextLoop_add] at run
          cases put : glyphCacheFragmentPut rules text cache id size with
          | error _ =>
            rw [put] at run
            cases run
          | ok _ => exact fragmentPut_le put
        apply Always.intro
        · exact short
        intro next step
        cases step with
        | @add _ id size rest =>
          rw [glyphTextLoop_add, fragmentPut_ok (short id size rest rfl), ok_bind] at run
          exact ih run
        | glyph _ add _ => exact absurd rfl add
      | glyph op use add =>
        rw [glyphTextLoop_glyph use add] at run
        have here := glyphItem_run run
        apply Always.intro
        · rw [TextItem, if_neg use, if_neg add]
          exact here
        intro next step
        cases step with
        | use _ _ => exact absurd rfl use
        | add => exact absurd rfl add
        | glyph _ _ stored =>
          obtain ⟨result, item, -, all⟩ := glyphItem_ok here.1 here.2 pen
          obtain ⟨pen', rfl⟩ := Option.isSome_iff_exists.mp (all draws stored)
          exact ih (item.symm.trans run)

/-! ## Rectangles -/

def visibleEnd (low high : Int) : Int := if high > low then max (high + 1) 0 else max low 0

/-- The background rectangle of an order fits into 16 bits, and the width of the screen into 31 if
it is used. -/
structure BoundFits (width : Nat) (bk op : GlyphEdges) : Prop where
  left : bk.left < 2 ^ 15
  top : bk.top < 2 ^ 15
  across : min (visibleEnd bk.left bk.right) width - max bk.left 0 < 2 ^ 15
  down : visibleEnd bk.top bk.bottom - max bk.top 0 < 2 ^ 15
  screen : (width : Int) < visibleEnd bk.left bk.right ∨
    (width : Int) < visibleEnd op.left op.right → width < 2 ^ 31

theorem limitStart_eq (st : Int) : limitStart st = max st 0 := by
  unfold limitStart
  split <;> omega

theorem limitSize_eq (low high : Int) :
    limitSize low (edgeSize low high) = visibleEnd low high - max low 0 := by
  unfold limitSize edgeSize visibleEnd
  dsimp only
  split_ifs <;> omega

theorem limitArea_ok (screen : (width : Int) < visibleEnd edges.left edges.right → width < 2 ^ 31) :
    limitArea width edges.area = .ok ⟨max edges.left 0, max edges.top 0,
        min (visibleEnd edges.left edges.right) width - max edges.left 0,
        visibleEnd edges.top edges.bottom - max edges.top 0⟩ := by
  unfold limitArea limitWidth
  simp only [GlyphEdges.area, limitStart_eq, limitSize_eq]
  split
  · next =>
    rw [castSigned_ok (by omega) (by omega), ok_bind, ok_bind, Int.min_eq_right (by omega)]
  · rw [ok_bind, Int.min_eq_left (by omega)]

theorem limitArea_screen {area : GlyphArea} (run : limitArea width edges.area = .ok area) :
    (width : Int) < visibleEnd edges.left edges.right → width < 2 ^ 31 := by
  by_contra large
  unfold limitArea limitWidth castSigned at run
  simp only [GlyphEdges.area, limitStart_eq, limitSize_eq] at run
  rw [if_pos (by omega), if_neg (by omega)] at run
  cases run

theorem castSigned_run {y : Int} (run : castSigned bits x = .ok y) :
    y = x ∧ -2 ^ (bits - 1) ≤ x ∧ x < 2 ^ (bits - 1) := by
  unfold castSigned at run
  split at run
  · next fits =>
    cases run
    exact ⟨rfl, fits⟩
  · cases run

theorem le_visibleEnd (low high : Int) : max low 0 ≤ visibleEnd low high := by
  unfold visibleEnd
  split <;> omega

/-! ## Orders -/

section Orders
variable {width : Nat} {bk op : GlyphEdges}

def glyphBound (width : Nat) (text : GlyphText) :
    Except GlyphFault (GlyphArea × GlyphArea × GlyphArea) := do
  let op ← limitArea width text.op
  let bk ← limitArea width text.bk
  let x ← castSigned 16 bk.x
  let y ← castSigned 16 bk.y
  let w ← castSigned 16 bk.width
  let h ← castSigned 16 bk.height
  .ok (op, bk, ⟨x, y, w, h⟩)

theorem glyphBound_ok (isBk : text.bk = bk.area) (isOp : text.op = op.area)
    (fits : BoundFits width bk op) :
    ∃ bounds, glyphBound width text = .ok bounds := by
  have left := fits.left
  have top := fits.top
  have across := fits.across
  have down := fits.down
  have ends := le_visibleEnd bk.left bk.right
  have endsDown := le_visibleEnd bk.top bk.bottom
  unfold glyphBound
  rw [isBk, isOp, limitArea_ok (fun far => fits.screen (.inr far)), ok_bind,
    limitArea_ok (fun far => fits.screen (.inl far)), ok_bind]
  dsimp only
  rw [castSigned_ok (by omega) (by omega), ok_bind, castSigned_ok (by omega) (by omega), ok_bind,
    castSigned_ok (by omega) (by omega), ok_bind, castSigned_ok (by omega) (by omega), ok_bind]
  exact ⟨_, rfl⟩

theorem glyphBound_fits (isBk : text.bk = bk.area) (isOp : text.op = op.area)
    {bounds : GlyphArea × GlyphArea × GlyphArea} (run : glyphBound width text = .ok bounds) :
    BoundFits width bk op := by
  unfold glyphBound at run
  simp only [isBk, isOp, bind_ok_iff] at run
  obtain ⟨_, limitedOp, _, limitedBk, x, castX, y, castY, w, castW, h, castH, -⟩ := run
  have screenBk := limitArea_screen limitedBk
  have screenOp := limitArea_screen limitedOp
  rw [limitArea_ok screenBk] at limitedBk
  cases limitedBk
  have left := (castSigned_run castX).2
  have top := (castSigned_run castY).2
  dsimp only at left top
  exact ⟨by omega, by omega, (castSigned_run castW).2.2, (castSigned_run castH).2.2, fun far => far.elim screenBk screenOp⟩

theorem glyphFragments_eq : updateProcessGlyphFragments rules callbacks width text cache =
    (glyphBound width text >>= fun bounds =>
        if ¬callbacks.beginDraw bounds.1 text.bgcolor text.fgcolor
        text.fOpRedundant then .ok (false, cache)
        else if ¬callbacks.setBounds bounds.2.1 then .ok (false, cache)
        else
          glyphTextLoop rules callbacks text bounds.2.2 text.length cache (text.data.take text.length)
            ⟨text.x, text.y, 0⟩ >>= fun result =>
          .ok (result.1 && callbacks.endDraw bounds.1 text.bgcolor text.fgcolor, result.2)) := by
  simp only [updateProcessGlyphFragments, glyphBound, bind_assoc, ok_bind]

theorem glyphFragments_ok (isBk : text.bk = bk.area) (isOp : text.op = op.area)
    (fits : BoundFits width bk op) (safe : TextSafe rules text cache (text.data.take text.length)) :
    ∃ result, updateProcessGlyphFragments rules callbacks width text cache = .ok result := by
  obtain ⟨bounds, bounded⟩ := glyphBound_ok isBk isOp fits
  obtain ⟨result, run⟩ := @glyphTextLoop_ok rules text callbacks bounds.2.2 cache text.length _
    (length_take_le _ _) safe ⟨text.x, text.y, 0⟩
  rw [glyphFragments_eq, bounded, ok_bind, run, ok_bind]
  split
  · exact ⟨_, rfl⟩
  split
  · exact ⟨_, rfl⟩
  · exact ⟨_, rfl⟩

def drawsAll : GlyphCallbacks :=
  ⟨fun _ _ => true, fun _ _ _ _ => true, fun _ => true, fun _ _ => true, fun _ _ _ => true⟩

variable {result : Bool × GlyphCache} {order : GlyphOrder}

theorem glyphFragments_run (isBk : text.bk = bk.area) (isOp : text.op = op.area)
    (run : updateProcessGlyphFragments rules drawsAll width text cache = .ok result) :
    BoundFits width bk op ∧ TextSafe rules text cache (text.data.take text.length) := by
  rw [glyphFragments_eq, bind_ok_iff] at run
  obtain ⟨_, bounded, rest⟩ := run
  refine ⟨glyphBound_fits isBk isOp bounded, ?_⟩
  obtain ⟨_, loop, -⟩ := bind_ok_iff.mp rest
  exact glyphTextLoop_safe (fun _ _ => rfl) loop

def GlyphOrder.Safe (rules : GlyphRules) (width : Nat) (cache : GlyphCache) : GlyphOrder → Prop
  | .cacheGlyph _ _ => True
  | .glyphIndex order fOpRedundant =>
    BoundFits width order.bk order.op ∧
      TextSafe rules (glyphIndexText order fOpRedundant) cache (order.data.take order.cbData.toNat)
  | .fastIndex order =>
    BoundFits width order.bk (fastOp width order.bk order.op) ∧
      TextSafe rules (fastIndexText width order) cache (order.data.take order.cbData.toNat)
  | .fastGlyph order =>
    -- an order that brings its glyph puts it into the cache first
    ∀ cache', order.glyphData.elim (some cache)
      (glyphCachePut cache order.cacheId order.index.toNat) = some cache' →
      BoundFits width order.bk (fastOp width order.bk order.op) ∧
        TextSafe rules (fastGlyphText width order) cache' [order.index, 0, 0, 0]

theorem updateGdiGlyphIndex_eq (order : GlyphIndexOrder) (fOpRedundant : UInt8) :
    updateGdiGlyphIndex rules callbacks width order fOpRedundant cache =
      updateProcessGlyphFragments rules callbacks width (glyphIndexText order fOpRedundant) cache := by
  have lt := fOpRedundant.toNat_lt
  rw [updateGdiGlyphIndex, castSigned_ok (by omega) (by omega), ok_bind]
  rfl

theorem processGlyphOrder_ok (safe : order.Safe rules width cache) :
    ∃ result, processGlyphOrder rules width callbacks cache order = .ok result := by
  cases order with
  | cacheGlyph cacheId glyphs => exact ⟨_, rfl⟩
  | glyphIndex order fOpRedundant =>
    rw [processGlyphOrder, updateGdiGlyphIndex_eq]
    exact glyphFragments_ok rfl rfl safe.1 safe.2
  | fastIndex order => exact glyphFragments_ok rfl rfl safe.1 safe.2
  | fastGlyph order =>
    rw [processGlyphOrder, updateGdiFastGlyph]
    cases glyphData : order.glyphData with
    | none =>
      obtain ⟨fits, text⟩ := safe cache (by rw [glyphData]; rfl)
      exact glyphFragments_ok rfl rfl fits text
    | some glyph =>
      dsimp only
      split
      · exact ⟨_, rfl⟩
      · cases put : glyphCachePut cache order.cacheId order.index.toNat glyph with
        | none => exact ⟨_, rfl⟩
        | some cache' =>
          obtain ⟨fits, text⟩ := safe cache' (by rw [glyphData]; exact put)
          exact glyphFragments_ok rfl rfl fits text

theorem processGlyphOrder_safe
    (run : processGlyphOrder rules width drawsAll cache order = .ok result) :
    order.Safe rules width cache := by
  cases order with
  | cacheGlyph cacheId glyphs => trivial
  | glyphIndex order fOpRedundant =>
    rw [processGlyphOrder, updateGdiGlyphIndex_eq] at run
    exact glyphFragments_run rfl rfl run
  | fastIndex order => exact glyphFragments_run rfl rfl run
  | fastGlyph order =>
    rw [processGlyphOrder, updateGdiFastGlyph] at run
    intro cache' after
    cases glyphData : order.glyphData with
    | none =>
      rw [glyphData] at run after
      cases after
      exact glyphFragments_run rfl rfl run
    | some glyph =>
      rw [glyphData] at run after
      have put : glyphCachePut cache order.cacheId order.index.toNat glyph = some cache' := after
      simp only [put] at run
      exact glyphFragments_run rfl rfl run

/-! ## Connections -/

def GlyphOrdersSafe (rules : GlyphRules) (width : Nat) :
    (Nat → GlyphCallbacks) → GlyphCache → List GlyphOrder → Prop
  | _, _, [] => True
  | callbacks, cache, order :: orders =>
    order.Safe rules width cache ∧
      ∀ cache', processGlyphOrder rules width (callbacks 0) cache order = .ok (true, cache') →
        GlyphOrdersSafe rules width (fun i => callbacks (i + 1)) cache' orders

def consCallbacks (first : GlyphCallbacks) (later : Nat → GlyphCallbacks) : Nat → GlyphCallbacks
  | 0 => first
  | i + 1 => later i

theorem processGlyphOrders_cons {orders : List GlyphOrder} (callbacks : Nat → GlyphCallbacks) :
    processGlyphOrders rules width callbacks cache (order :: orders) =
      (processGlyphOrder rules width (callbacks 0) cache order >>= fun result =>
        if result.1 then processGlyphOrders rules width (fun i => callbacks (i + 1)) result.2 orders
        else .ok (false, result.2)) := rfl

/-- Whatever the client does, the orders of a connection meet no fault exactly if each of them is
safe when its turn comes. -/
theorem glyph_orders_safe_iff (rules : GlyphRules) (width : Nat) (cache : GlyphCache)
    (orders : List GlyphOrder) :
    (∀ callbacks, ∃ result, processGlyphOrders rules width callbacks cache orders = .ok result) ↔
      ∀ callbacks, GlyphOrdersSafe rules width callbacks cache orders := by
  induction orders generalizing cache with
  | nil => exact iff_of_true (fun _ => ⟨_, rfl⟩) fun _ => trivial
  | cons order orders ih =>
    constructor
    · intro runs callbacks
      constructor
      · -- a client that draws everything gets to see every fault
        obtain ⟨result, run⟩ := runs (consCallbacks drawsAll callbacks)
        rw [processGlyphOrders_cons, bind_ok_iff] at run
        obtain ⟨fst, run, -⟩ := run
        exact processGlyphOrder_safe run
      intro cache' fst
      apply (ih cache').mp
      intro later
      obtain ⟨result, run⟩ := runs (consCallbacks (callbacks 0) later)
      rw [processGlyphOrders_cons, consCallbacks, fst, ok_bind] at run
      exact ⟨result, run⟩
    intro safe callbacks
    obtain ⟨⟨rc, cache'⟩, fst⟩ :=
      @processGlyphOrder_ok rules (callbacks 0) cache width order (safe callbacks).1
    rw [processGlyphOrders_cons, fst, ok_bind]
    cases rc with
    | false => exact ⟨_, rfl⟩
    | true =>
      apply (ih cache').mpr
      intro later
      exact (safe (consCallbacks (callbacks 0) later)).2 cache' fst

end Orders

def cornerOrder (ulCharInc : UInt8) (bytes : List UInt8) (short : bytes.length ≤ 255) : GlyphOrder :=
  .glyphIndex
    { cacheId := 0
      flAccel := 0
      ulCharInc := ulCharInc
      backColor := 0
      foreColor := 0
      bk := ⟨0, 0, 15, 15⟩
      op := ⟨0, 0, 0, 0⟩
      x := 0
      y := 0
      cbData := UInt8.ofNat bytes.length
      data := bytes ++ List.replicate (256 - bytes.length) 0
      array := by
        rw [List.length_append, List.length_replicate]
        omega }
    0

def glyphFault (run : Except GlyphFault (Bool × GlyphCache)) : Option GlyphFault :=
  match run with
  | .error fault => some fault
  | .ok _ => none

/-- A glyph without the offset that should follow it; and a glyph 254, which only a fragment can
name, in a cache of 254 entries. -/
theorem glyph_orders_not_safe :
    glyphFault (processGlyphOrders ⟨false, false⟩ 1024 (fun _ => drawsAll) (glyphCacheNew fun _ => 254)
        [cornerOrder 0 [65] (by decide)]) = some .outside ∧
      glyphFault (processGlyphOrders ⟨false, false⟩ 1024 (fun _ => drawsAll) (glyphCacheNew fun _ => 254)
        [.cacheGlyph 0 [(0, ⟨0, 0, 8, 8⟩)], cornerOrder 1 [0, GLYPH_FRAGMENT_ADD, 1, 1] (by decide),
          cornerOrder 1 [0, GLYPH_FRAGMENT_USE, 1, GLYPH_FRAGMENT_ADD, 2, 2] (by decide),
          cornerOrder 1 [GLYPH_FRAGMENT_USE, 2] (by decide)]) = some .entry := by
  decide +kernel

end KvmServer.Cache
