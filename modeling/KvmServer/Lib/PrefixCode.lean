import KvmServer.Lib.Bits

/-! # Codes with a distinguishing pattern

An entry is announced by the `c.width` bits `c.pattern`; the `c.extra` bits after it carry a value
relative to `c.base`.  A decoder may test the entries of a prefix-free table in any order. -/

namespace KvmServer.Lib
open List

structure CodeWord where
  (width pattern extra base : Nat)
deriving DecidableEq, Repr

namespace CodeWord

variable (c : CodeWord)

def spell (value : Nat) : List Bool :=
  msbBits c.width c.pattern ++ msbBits c.extra (value - c.base)

def Covers (value : Nat) : Prop := c.base ≤ value ∧ value < c.base + 2 ^ c.extra

instance (c : CodeWord) (value : Nat) : Decidable (c.Covers value) :=
  inferInstanceAs (Decidable (_ ∧ _))

def Matches (bits : List Bool) : Prop := msbPeek bits c.width = c.pattern

instance (c : CodeWord) (bits : List Bool) : Decidable (c.Matches bits) :=
  inferInstanceAs (Decidable (_ = _))

def value (bits : List Bool) : Nat := msbPeek (bits.drop c.width) c.extra + c.base

/-- The shorter of two patterns differs from the front of the longer one. -/
def Apart (c d : CodeWord) : Prop :=
  c.pattern / 2 ^ (c.width - d.width) ≠ d.pattern / 2 ^ (d.width - c.width)

instance (c d : CodeWord) : Decidable (c.Apart d) := inferInstanceAs (Decidable (_ ≠ _))

theorem spell_length (value : Nat) : (c.spell value).length = c.width + c.extra := by
  simp [spell]

variable {c : CodeWord} {bits : List Bool}

theorem matches_spell (proper : c.pattern < 2 ^ c.width) (value : Nat)
    (rest : List Bool) : c.Matches (c.spell value ++ rest) := by
  rw [Matches, spell, append_assoc, msbPeek_msbBits_append proper]

theorem value_spell {value : Nat} (covers : c.Covers value) (rest : List Bool) :
    c.value (c.spell value ++ rest) = value := by
  obtain ⟨_, _⟩ := covers
  have lt : value - c.base < 2 ^ c.extra := by omega
  rw [CodeWord.value, spell, append_assoc, drop_left' (msbBits_length _ _), msbPeek_msbBits_append lt]
  omega

theorem not_apart_of_matches {d : CodeWord} (fst : c.Matches bits) (second : d.Matches bits) :
    ¬c.Apart d := by
  intro apart
  apply apart
  rw [← fst, ← second]
  rcases le_total c.width d.width with le | le
  · have longer := msbPeek_div bits c.width (d.width - c.width)
    rw [Nat.add_sub_cancel' le] at longer
    rw [longer, Nat.sub_eq_zero_of_le le, pow_zero, Nat.div_one]
  have longer := msbPeek_div bits d.width (c.width - d.width)
  rw [Nat.add_sub_cancel' le] at longer
  rw [longer, Nat.sub_eq_zero_of_le le, pow_zero, Nat.div_one]

theorem find?_matches {table : List CodeWord} (preFree : table.Pairwise Apart)
    (mem : c ∈ table) (matching : c.Matches bits) :
    table.find? (fun d => decide (d.Matches bits)) = some c := by
  induction table with
  | nil => cases mem
  | cons d table ih =>
    obtain ⟨head, tail⟩ := pairwise_cons.mp preFree
    rcases mem_cons.mp mem with rfl | later
    · simp [matching]
    have other : ¬d.Matches bits := fun both => not_apart_of_matches both matching (head c later)
    rw [find?_cons_of_neg (by simpa using other), ih tail later]

end CodeWord

structure CodeTable where
  words : List CodeWord
  proper : ∀ c ∈ words, c.pattern < 2 ^ c.width
  prefixFree : words.Pairwise CodeWord.Apart

namespace CodeTable

def Covers (table : CodeTable) (value : Nat) : Prop := ∃ c ∈ table.words, c.Covers value

/-- The spelling of `value` by the first entry that covers it. -/
def spell (table : CodeTable) (value : Nat) : List Bool :=
  match table.words.find? (fun c => c.Covers value) with
  | some c => c.spell value
  | none => []

variable {table : CodeTable} {value : Nat}

theorem find?_covers (covered : table.Covers value) : ∃ c ∈ table.words, c.Covers value ∧
      table.words.find? (fun c => decide (c.Covers value)) = some c ∧
      table.spell value = c.spell value := by
  obtain ⟨d, present, coversD⟩ := covered
  have some : (table.words.find? (fun c => decide (c.Covers value))).isSome :=
    find?_isSome.mpr ⟨d, present, by simpa using coversD⟩
  obtain ⟨c, got⟩ := Option.isSome_iff_exists.mp some
  refine ⟨c, mem_of_find?_eq_some got, by simpa using find?_some got, got, ?_⟩
  simp only [spell, got]

/-- The value at the front of the bits and the number of bits it takes. -/
def read (table : CodeTable) (bits : List Bool) : Option (Nat × Nat) :=
  (table.words.find? fun c => c.Matches bits).map fun c => (c.value bits, c.width + c.extra)

theorem read_some {bits : List Bool} {n : Nat} (got : table.read bits = some (value, n)) :
    ∃ c ∈ table.words, c.Covers value ∧ n = c.width + c.extra := by
  obtain ⟨c, fst, same⟩ := Option.map_eq_some_iff.mp got
  obtain ⟨rfl, rfl⟩ := Prod.mk.inj same
  have lt := msbPeek_lt (bits.drop c.width) c.extra
  exact ⟨c, mem_of_find?_eq_some fst, ⟨Nat.le_add_left _ _, by rw [CodeWord.value]; omega⟩, rfl⟩

/-- Testing the patterns in table order finds the entry that spelled the value. -/
theorem read_spell (covered : table.Covers value) (rest : List Bool) :
    table.read (table.spell value ++ rest) = some (value, (table.spell value).length) := by
  obtain ⟨c, mem, covers, -, spent⟩ := find?_covers covered
  have got :=
    CodeWord.find?_matches table.prefixFree mem (CodeWord.matches_spell (table.proper c mem) value rest)
  rw [read, spent, got, Option.map_some, CodeWord.value_spell covers, CodeWord.spell_length]

end CodeTable

end KvmServer.Lib
