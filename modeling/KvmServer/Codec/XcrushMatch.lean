import KvmServer.Codec.Xcrush

/-! # The matches of level 1

The chunk table may hold anything.  What a match promises is only what `xcrush_find_match_length`
has compared in the history as it stands. -/

namespace KvmServer.Codec
open Lib List

structure XcrushMatchInfo.Holds (mem : Mem UInt8) (first last : Nat) (m : XcrushMatchInfo) : Prop where
  first_le : first ≤ m.matchOffset
  le_last : m.matchOffset + m.matchLength ≤ last
  same : ∀ k, k < m.matchLength → mem (m.chunkOffset + k) = mem (m.matchOffset + k)

/-! ## Comparing -/

variable (mem : Mem UInt8)

theorem forwardMatchLength_le (matchPtr chunkPtr left : Nat) :
    forwardMatchLength mem matchPtr chunkPtr left ≤ left := by
  induction left generalizing matchPtr chunkPtr with
  | zero => exact le_rfl
  | succ left ih =>
    rw [forwardMatchLength]
    split
    · exact Nat.succ_le_succ (ih _ _)
    · exact Nat.zero_le _

theorem forwardMatchLength_same (matchPtr chunkPtr left : Nat) {k : Nat}
    (lo : k < forwardMatchLength mem matchPtr chunkPtr left) :
    mem (chunkPtr + k) = mem (matchPtr + k) := by
  induction left generalizing matchPtr chunkPtr k with
  | zero => exact absurd lo (Nat.not_lt_zero k)
  | succ left ih =>
    rw [forwardMatchLength] at lo
    split at lo
    · rename_i eq
      cases k with
      | zero => exact eq.symm
      | succ k =>
        have rest := ih (matchPtr + 1) (chunkPtr + 1) (Nat.lt_of_succ_lt_succ lo)
        rwa [add_assoc, add_comm 1, add_assoc, add_comm 1] at rest
    · exact absurd lo (Nat.not_lt_zero k)

theorem reverseMatchLength_le (first matchPtr chunkPtr : Nat) :
    reverseMatchLength mem first matchPtr chunkPtr ≤ chunkPtr ∧
    (reverseMatchLength mem first matchPtr chunkPtr = 0 ∨
        first + reverseMatchLength mem first matchPtr chunkPtr < matchPtr) := by
  fun_induction reverseMatchLength mem first matchPtr chunkPtr with
  | case1 matchPtr chunkPtr same ih =>
    obtain ⟨_, _ | _⟩ := ih
    iterate 2 exact ⟨by omega, Or.inr (by omega)⟩
  | case2 | case3 => exact ⟨Nat.zero_le _, Or.inl rfl⟩

theorem reverseMatchLength_same (first matchPtr chunkPtr : Nat) {k : Nat}
    (pos : 0 < k) (inside : k ≤ reverseMatchLength mem first matchPtr chunkPtr) :
    mem (chunkPtr - k) = mem (matchPtr - k) := by
  fun_induction reverseMatchLength mem first matchPtr chunkPtr generalizing k with
  | case1 matchPtr chunkPtr same ih =>
    cases k with
    | zero => exact absurd pos (lt_irrefl 0)
    | succ k =>
      rw [Nat.succ_sub_succ, Nat.succ_sub_succ]
      cases k with
      | zero => exact same.2.2.symm
      | succ k => exact ih (Nat.succ_pos k) (Nat.le_of_succ_le_succ inside)
  | case2 => omega
  | case3 => omega

variable {xcrush : XcrushContext} {srcSize offset first last : Nat} {m : XcrushMatchInfo}
  {mem : Mem UInt8}
  {optMatches : List XcrushMatchInfo}

theorem findMatchLength_spec {matchOff chunkOff histOff maxMatchLen : Nat}
    (res : xcrushFindMatchLength xcrush matchOff chunkOff histOff srcSize maxMatchLen = .ok m)
    (first : histOff ≤ matchOff) (last : matchOff ≤ histOff + srcSize) :
    m.matchLength = 0 ∨ m.Holds xcrush.historyBuffer histOff (histOff + srcSize) ∧
      (chunkOff < matchOff → m.chunkOffset < m.matchOffset) := by
  obtain ⟨_, _⟩ :=
    reverseMatchLength_le xcrush.historyBuffer histOff matchOff chunkOff
  have forward :=
    forwardMatchLength_le xcrush.historyBuffer matchOff chunkOff (histOff + srcSize - matchOff)
  have forwardSame :=
    @forwardMatchLength_same xcrush.historyBuffer matchOff chunkOff (histOff + srcSize - matchOff)
  have reverseSame := @reverseMatchLength_same xcrush.historyBuffer histOff matchOff chunkOff
  unfold xcrushFindMatchLength at res
  dsimp only at res
  generalize reverseMatchLength xcrush.historyBuffer histOff matchOff chunkOff = r at *
  repeat' split at res
  any_goals cases res
  · exact Or.inl rfl
  · exact Or.inl rfl
  refine Or.inr ⟨⟨by dsimp only; omega, by dsimp only; omega, ?_⟩, by dsimp only; omega⟩
  intro k lo
  dsimp only at lo ⊢
  by_cases past : k < r
  · have same := reverseSame (k := r - k) (by omega) (by omega)
    rwa [show chunkOff - (r - k) = chunkOff - r +
      k by omega, show matchOff - (r - k) = matchOff - r + k by omega] at same
  have same := forwardSame (k := k - r) (by omega)
  rwa [show chunkOff + (k - r) = chunkOff - r +
    k by omega, show matchOff + (k - r) = matchOff - r + k by omega] at same

/-! ## Searching -/

structure XcrushContext.SameHistory (xcrush xcrush' : XcrushContext) : Prop where
  mppc_eq : xcrush'.mppc = xcrush.mppc
  offset_eq : xcrush'.historyOffset = xcrush.historyOffset
  size_eq : xcrush'.historyBufferSize = xcrush.historyBufferSize
  memory_eq : xcrush'.historyBuffer = xcrush.historyBuffer
  flags_eq : xcrush'.compressionFlags = xcrush.compressionFlags

theorem XcrushContext.SameHistory.refl (xcrush : XcrushContext) : xcrush.SameHistory xcrush :=
  ⟨rfl, rfl, rfl, rfl, rfl⟩

theorem XcrushContext.SameHistory.trans {x y z : XcrushContext} (first : x.SameHistory y)
    (second : y.SameHistory z) : x.SameHistory z :=
  ⟨second.mppc_eq.trans first.mppc_eq, second.offset_eq.trans first.offset_eq,
    second.size_eq.trans first.size_eq, second.memory_eq.trans first.memory_eq,
    second.flags_eq.trans first.flags_eq⟩

def ChunksBelow (bound : Nat) (xcrush : XcrushContext) : Prop :=
  ∀ i, (xcrush.chunks i).offset ≤ bound

theorem ChunksBelow.clear {bound : Nat} (lo : ChunksBelow bound xcrush)
    (first last : Nat) : ChunksBelow bound (xcrushClearHashTableRange xcrush first last) := by
  intro i
  unfold xcrushClearHashTableRange
  dsimp only
  split
  · exact lo i
  · exact lo i

theorem insertChunk_room (xcrush : XcrushContext) :
    let wrapped := if xcrush.chunkHead ≥ 65530 then { xcrush with chunkHead := 1, chunkTail := 1 }
      else xcrush
    let cleared := if wrapped.chunkHead ≥ wrapped.chunkTail then
        { xcrushClearHashTableRange wrapped wrapped.chunkTail (wrapped.chunkTail + 10000) with
          chunkTail := wrapped.chunkTail + 10000 }
      else wrapped
    xcrush.SameHistory cleared ∧ ∀ bound, ChunksBelow bound xcrush → ChunksBelow bound cleared := by
  intro wrapped cleared
  have st : xcrush.SameHistory wrapped ∧ ∀ bound, ChunksBelow bound xcrush →
      ChunksBelow bound wrapped := by
    unfold wrapped
    split
    · exact ⟨⟨rfl, rfl, rfl, rfl, rfl⟩, fun _ lo => lo⟩
    · exact ⟨.refl _, fun _ lo => lo⟩
  refine ⟨st.1.trans ?_, fun bound lo => ?_⟩
  · unfold cleared
    split
    · exact ⟨rfl, rfl, rfl, rfl, rfl⟩
    · exact .refl _
  have lo := st.2 bound lo
  unfold cleared
  split
  · exact lo.clear _ _
  · exact lo

variable {xcrush' : XcrushContext} {best : XcrushMatchInfo} {origMatches : List XcrushMatchInfo}

theorem xcrushInsertChunk_spec {signature : XcrushSignature} {prevChunk chunk : Option Nat}
    (res : xcrushInsertChunk xcrush signature offset prevChunk = .ok (xcrush', chunk)) :
    xcrush.SameHistory xcrush' ∧
      ∀ bound, offset ≤ bound → ChunksBelow bound xcrush → ChunksBelow bound xcrush' := by
  obtain ⟨same, keeps⟩ := insertChunk_room xcrush
  unfold xcrushInsertChunk at res
  dsimp only at res same keeps
  generalize (if (if xcrush.chunkHead ≥ 65530 then _ else xcrush).chunkHead ≥ _ then _ else _ :
    XcrushContext) = cleared at *
  split at res
  · cases res
  split at res
  · cases res
  · cases res
    refine ⟨same.trans ⟨rfl, rfl, rfl, rfl, rfl⟩, fun bound inside lo i => ?_⟩
    by_cases here : i = cleared.chunkHead
    · subst here
      simp only [store_same]
      exact inside
    simp only [store_of_ne _ _ here]
    exact keeps bound lo i

def FoundMatch (xcrush : XcrushContext) (first last : Nat) (m : XcrushMatchInfo) : Prop :=
  m.matchLength = 0 ∨ m.Holds xcrush.historyBuffer first last ∧
    (ChunksBelow last xcrush → m.chunkOffset < m.matchOffset)

theorem foundMatch_of_chunk {chunk longest : Nat} (hi : first ≤ offset) (lo : offset ≤ first + srcSize)
    (st : FoundMatch xcrush first (first + srcSize) best)
    (res : (if (xcrush.chunks chunk).offset < first ∨ (xcrush.chunks chunk).offset < offset ∨
        (xcrush.chunks chunk).offset > srcSize + first then
      xcrushFindMatchLength xcrush offset (xcrush.chunks chunk).offset first srcSize longest
      else .ok ⟨0, 0, 0⟩) = .ok m) (longer : Bool) :
    FoundMatch xcrush first (first + srcSize) (if longer then m else best) := by
  cases longer with
  | false => exact st
  | true =>
    split at res
    · cases findMatchLength_spec res hi lo with
      | inl none => exact Or.inl none
      | inr got =>
        refine Or.inr ⟨got.1, fun chunks => got.2 ?_⟩
        have := chunks chunk
        omega
    · cases res
      exact Or.inl rfl

theorem xcrushWalkChunks_spec (hi : first ≤ offset) (lo : offset ≤ first + srcSize)
    (more chunk : Nat) {chunk' : Option Nat}
    (res : xcrushWalkChunks xcrush offset first srcSize more chunk best = .ok (chunk', m))
    (st : FoundMatch xcrush first (first + srcSize) best) :
    FoundMatch xcrush first (first + srcSize) m := by
  fun_induction xcrushWalkChunks xcrush offset first srcSize more chunk best with
  | case1 | case4 => cases res
  | case2 _ _ _ _ _ _ got | case3 _ _ _ _ _ got | case5 _ _ _ _ _ got =>
    rw [← (Prod.mk.inj (Except.ok.inj res)).2]
    exact foundMatch_of_chunk hi lo st got _
  | case6 _ _ _ _ _ got _ _ _ _ _ _ ih =>
    exact ih res (foundMatch_of_chunk hi lo st got _)

structure Searched (xcrush : XcrushContext) (first srcSize : Nat) (s : XcrushSearch) : Prop where
  context : xcrush.SameHistory s.xcrush
  offset : s.srcOffset ≤ srcSize
  holds : ∀ m ∈ s.originalMatches, m.Holds xcrush.historyBuffer first (first + srcSize)
  chunks : ChunksBelow (first + srcSize) xcrush → ChunksBelow (first + srcSize) s.xcrush ∧
    ∀ m ∈ s.originalMatches, m.chunkOffset < m.matchOffset

section
variable {xcrush : XcrushContext} {fst srcSize : Nat} {s s' : XcrushSearch}

theorem Searched.keep (inv : Searched xcrush fst srcSize s) (same : s.xcrush.SameHistory xcrush')
    (lo : ChunksBelow (fst + srcSize) s.xcrush → ChunksBelow (fst + srcSize) xcrush')
    (chunk : Option Nat) :
    Searched xcrush fst srcSize { s with xcrush := xcrush', chunk := chunk } :=
  ⟨inv.context.trans same, inv.offset, inv.holds, fun st => ⟨lo (inv.chunks st).1, (inv.chunks st).2⟩⟩

theorem xcrushFindMatch_spec (inv : Searched xcrush fst srcSize s) {signature : XcrushSignature}
    (res : xcrushFindMatch fst srcSize signature s = .ok s') : Searched xcrush fst srcSize s' := by
  have lo : s.srcOffset + fst ≤ fst + srcSize := by
    have := inv.offset
    omega
  unfold xcrushFindMatch at res
  dsimp only at res
  split at res
  · cases res
  · rename_i inserted
    obtain ⟨same, chunks⟩ := xcrushInsertChunk_spec inserted
    cases res
    exact inv.keep same (chunks _ lo) none
  rename_i _ chunk inserted
  obtain ⟨same, chunks⟩ := xcrushInsertChunk_spec inserted
  have kept := inv.keep same (chunks _ lo)
  split at res
  · split at res
    · cases res
    rename_i chunk' m walked
    split at res
    · cases res
      exact kept chunk'
    rename_i ne
    split at res
    · cases res
    split at res
    · cases res
    · cases res
      cases xcrushWalkChunks_spec (by omega) lo 5 chunk walked (Or.inl rfl) with
      | inl none => exact absurd none ne
      | inr got =>
        have memory := (kept chunk').context.memory_eq
        refine ⟨(kept chunk').context, inv.offset, ?_, fun st => ?_⟩
        · intro m' member
          cases mem_append.mp member with
          | inl old => exact inv.holds m' old
          | inr new =>
            cases mem_singleton.mp new
            rw [← memory]
            exact got.1
        obtain ⟨table, back⟩ := (kept chunk').chunks st
        refine ⟨table, fun m' member => ?_⟩
        cases mem_append.mp member with
        | inl old => exact back m' old
        | inr new =>
          cases mem_singleton.mp new
          exact got.2 table
  · cases res
    exact kept (some chunk)

theorem findAllMatches_spec (signatures : List XcrushSignature) (inv : Searched xcrush fst srcSize s)
    (res : xcrushFindAllMatches fst srcSize signatures s = .ok s') : Searched xcrush fst srcSize s' := by
  induction signatures generalizing s with
  | nil =>
    rw [xcrushFindAllMatches] at res
    split at res
    · cases res
    · cases res
      exact inv
  | cons _ signatures ih =>
    rw [xcrushFindAllMatches] at res
    split at res
    · cases res
    split at res
    · cases res
    rename_i _ got
    have inv₁ := xcrushFindMatch_spec inv got
    dsimp only at res
    split at res
    · cases res
    rename_i inside
    refine ih ?_ res
    exact ⟨inv₁.context, not_lt.mp inside, inv₁.holds, inv₁.chunks⟩

end

/-! ## Trimming -/

inductive Ordered (mem : Mem UInt8) (last : Nat) : Nat → List XcrushMatchInfo → Prop where
  | nil {first : Nat} (inside : first ≤ last) : Ordered mem last first []
  | cons {first : Nat} {m : XcrushMatchInfo} {rest : List XcrushMatchInfo}
      (holds : m.Holds mem first last)
      (tail : Ordered mem last (m.matchOffset + m.matchLength) rest) : Ordered mem last first (m :: rest)

def LooksBack (ms : List XcrushMatchInfo) : Prop := ∀ m ∈ ms, m.chunkOffset < m.matchOffset

theorem XcrushMatchInfo.Holds.trim {diff : Nat} (h : m.Holds mem first last)
    (some : diff < m.matchLength) :
    XcrushMatchInfo.Holds mem
    (m.matchOffset + diff) last ⟨m.matchOffset + diff, m.chunkOffset + diff, m.matchLength - diff⟩ := by
  have inside := h.le_last
  refine ⟨le_rfl, by dsimp only; omega, fun k lo => ?_⟩
  have same := h.same (diff + k) (by dsimp only at lo; omega)
  rwa [← add_assoc, ← add_assoc] at same

theorem optimizedMatches_cons {prevMatchEnd : Nat} {m' : XcrushMatchInfo}
    (inside : first ≤ m'.matchLength + m'.matchOffset) (h : m'.Holds mem (max first prevMatchEnd) last)
    (back : m.chunkOffset < m.matchOffset → m'.chunkOffset < m'.matchOffset)
    (rest : Ordered mem last (max first (m'.matchLength + m'.matchOffset)) optMatches ∧
      (LooksBack origMatches → LooksBack optMatches)) :
    Ordered mem last (max first prevMatchEnd) (m' :: optMatches) ∧
    (LooksBack (m :: origMatches) → LooksBack (m' :: optMatches)) := by
  obtain ⟨ordered, looksBack⟩ := rest
  rw [Nat.max_eq_right inside, add_comm] at ordered
  refine ⟨.cons h ordered, fun all x member => ?_⟩
  cases mem_cons.mp member with
  | inl head =>
    rw [head]
    exact back (all m mem_cons_self)
  | inr tail => exact looksBack (fun y other => all y (mem_cons_of_mem _ other)) x tail

theorem optimizeMatches_spec (prevMatchEnd : Nat)
    (h : ∀ m ∈ origMatches, m.Holds mem first last) (inside : max first prevMatchEnd ≤ last)
    (res : xcrushOptimizeMatches prevMatchEnd origMatches = .ok optMatches) :
    Ordered mem last (max first prevMatchEnd) optMatches ∧
    (LooksBack origMatches → LooksBack optMatches) := by
  fun_induction xcrushOptimizeMatches prevMatchEnd origMatches generalizing optMatches with
  | case1 =>
    cases res
    exact ⟨.nil inside, id⟩
  | case2 => cases res
  | case3 => cases res
  | case4 => cases res
  | case5 prevMatchEnd m origMatches _ overlap diff long _ m' rest tail =>
    rename_i ih
    cases res
    have here := h m mem_cons_self
    have st : m'.matchOffset = prevMatchEnd := Nat.add_sub_cancel' (le_of_lt overlap.1)
    have trimmed : m'.Holds mem (m.matchOffset + diff) last := here.trim (not_le.mp long)
    have hi := here.first_le
    have whole : max first prevMatchEnd = prevMatchEnd := by omega
    refine optimizedMatches_cons (by omega) ?_ (fun back => Nat.add_lt_add_right back diff)
      (ih (fun x member => h x (mem_cons_of_mem _ member)) ?_ tail)
    · rw [whole]
      rwa [show m.matchOffset + diff = prevMatchEnd from st] at trimmed
    have := trimmed.le_last
    omega
  | case6 prevMatchEnd m origMatches _ _ ih =>
    obtain ⟨ordered, back⟩ := ih (fun x member => h x (mem_cons_of_mem _ member)) inside res
    exact ⟨ordered, fun all => back fun x member => all x (mem_cons_of_mem _ member)⟩
  | case7 => cases res
  | case8 prevMatchEnd m origMatches apart optMatches tail ih =>
    cases res
    have here := h m mem_cons_self
    have hi := here.first_le
    have lo := here.le_last
    refine optimizedMatches_cons (by omega) ⟨by omega, lo, here.same⟩ id
      (ih (fun x member => h x (mem_cons_of_mem _ member)) (by omega) tail)

theorem xcrushMatches_spec {packet : List UInt8}
    (res : xcrushMatches xcrush first packet = .ok (xcrush', optMatches)) : xcrush.SameHistory xcrush' ∧
      Ordered xcrush.historyBuffer (first + packet.length) first optMatches ∧
      (ChunksBelow (first + packet.length) xcrush → LooksBack optMatches) := by
  have no : ∀ {y : XcrushContext} {ms : List XcrushMatchInfo},
      (Except.ok (xcrush, []) : Except (Int × XcrushContext) _) = .ok (y, ms) →
      xcrush.SameHistory y ∧ Ordered xcrush.historyBuffer (first + packet.length) first ms ∧
        (ChunksBelow (first + packet.length) xcrush → LooksBack ms) := by
    intro y ms same
    cases same
    exact ⟨.refl _, .nil (Nat.le_add_right _ _), fun _ => nofun⟩
  unfold xcrushMatches at res
  split at res
  · split at res
    · exact no res
    split at res
    · cases res
    rename_i s got
    have st : Searched xcrush first packet.length ⟨xcrush, none, 0, 0, []⟩ :=
      ⟨.refl _, Nat.zero_le _, nofun, fun lo => ⟨lo, nofun⟩⟩
    have searched := findAllMatches_spec _ st got
    split at res
    · cases res
    rename_i trimmed
    cases res
    obtain ⟨ordered, back⟩ := optimizeMatches_spec 0 searched.holds (by omega) trimmed
    rw [Nat.max_zero] at ordered
    exact ⟨searched.context, ordered, fun lo => back (searched.chunks lo).2⟩
  · exact no res

end KvmServer.Codec
