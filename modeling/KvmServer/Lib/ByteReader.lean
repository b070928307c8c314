import KvmServer.Lib.Bytes

/-! # Byte readers

A reader takes a value off the front of a list of bytes or fails.  `Ensures` says what every value
it returns satisfies, `Reads` that it takes one value off the bytes that encode it.  Both are
closed under sequencing. -/

namespace KvmServer.Lib

variable {ε α β : Type}

abbrev ByteReader (ε : Type) := StateT (List UInt8) (Except ε)

/-- Whatever the reader returns satisfies `Post`. -/
structure Ensures (reader : ByteReader ε α) (Post : α → Prop) : Prop where
  holds : ∀ bytes a rest, reader.run bytes = .ok (a, rest) → Post a

/-- The reader takes exactly `bytes` and returns `a`. -/
structure Reads (reader : ByteReader ε α) (bytes : List UInt8) (a : α) : Prop where
  takes : ∀ rest, reader.run (bytes ++ rest) = .ok (a, rest)

variable {bytes : List UInt8} {n : Nat} {reader : ByteReader ε α} {next : α → ByteReader ε β} (short : ε)

theorem run_bind_ok {middle : List UInt8} {a : α} (read : reader.run bytes = .ok (a, middle)) :
    (reader >>= next).run bytes = (next a).run middle := by
  rw [StateT.run_bind, read]
  rfl

theorem run_bind_error {e : ε} (fail : reader.run bytes = .error e) :
    (reader >>= next).run bytes = .error e := by
  rw [StateT.run_bind, fail]
  rfl

/-! ## What a reader ensures -/

namespace Ensures

variable {Post : α → Prop}

theorem pure {a : α} (h : Post a) : Ensures (Pure.pure a : ByteReader ε α) Post := by
  constructor
  intro _ b _ res
  cases res
  exact h

theorem throw (e : ε) (Post : α → Prop) : Ensures (MonadExcept.throw e : ByteReader ε α) Post := by
  constructor
  intro _ b _ res
  cases res

theorem trivial (reader : ByteReader ε α) : Ensures reader fun _ => True := ⟨fun _ _ _ _ => True.intro⟩

theorem weaken {Weaker : α → Prop} (strong : Ensures reader Post)
    (implied : ∀ a, Post a → Weaker a) : Ensures reader Weaker :=
  ⟨fun bytes a rest res => implied a (strong.holds bytes a rest res)⟩

theorem bind {Mid : α → Prop} {Post : β → Prop} (fst : Ensures reader Mid)
    (second : ∀ a, Mid a → Ensures (next a) Post) : Ensures (reader >>= next) Post := by
  constructor
  intro bytes b rest res
  cases read : reader.run bytes with
  | error e =>
    rw [StateT.run_bind, read] at res
    cases res
  | ok pair =>
    obtain ⟨a, mid⟩ := pair
    rw [run_bind_ok read] at res
    exact (second a (fst.holds bytes a mid read)).holds mid b rest res

theorem skip {Post : β → Prop} (second : ∀ a, Ensures (next a) Post) : Ensures (reader >>= next) Post :=
  (trivial reader).bind fun a _ => second a

theorem ite {condition : Prop} [Decidable condition] {yes no : ByteReader ε α}
    (h : condition → Ensures yes Post)
    (failed : ¬condition → Ensures no Post) : Ensures (if condition then yes else no) Post := by
  split
  next condition => exact h condition
  next condition => exact failed condition

end Ensures

/-! ## What a reader takes -/

namespace Reads

theorem pure (a : α) : Reads (Pure.pure a : ByteReader ε α) [] a := ⟨fun _ => rfl⟩

variable {a : α} {b : β}

theorem bind {fst second : List UInt8} (rd : Reads reader fst a) (nextRd : Reads (next a) second b) :
    Reads (reader >>= next) (fst ++ second) b := by
  constructor
  intro rest
  rw [List.append_assoc, run_bind_ok (rd.takes (second ++ rest))]
  exact nextRd.takes rest

theorem run_nil (rd : Reads reader [] a) (bytes : List UInt8) : reader.run bytes = .ok (a, bytes) :=
  rd.takes bytes

variable {bs : List UInt8}

theorem step (rd : Reads reader [] a) (nextRd : Reads (next a) bs b) : Reads (reader >>= next) bs b :=
  rd.bind nextRd

theorem cons {byte : UInt8} (rd : Reads reader [byte] a) (nextRd : Reads (next a) bs b) :
    Reads (reader >>= next) (byte :: bs) b :=
  rd.bind nextRd

theorem map (rd : Reads reader bs a) (f : α → β) :
    Reads (do let value ← reader; return f value) bs (f a) := by
  constructor
  intro rest
  rw [run_bind_ok (rd.takes rest)]
  rfl

end Reads

/-- The reader takes `n` bytes, and what is shorter fails. -/
structure Takes (short : ε) (reader : ByteReader ε α) (n : Nat) : Prop where
  fails : ∀ bytes, bytes.length < n → reader.run bytes = .error short
  leaves : ∀ bytes, n ≤ bytes.length → ∃ a rest, reader.run bytes = .ok (a, rest) ∧
    rest.length + n = bytes.length

namespace Takes

theorem pure (a : α) : Takes short (Pure.pure a : ByteReader ε α) 0 := by
  constructor
  · intro bytes less
    exact absurd less (Nat.not_lt_zero _)
  intro bytes _
  exact ⟨a, bytes, rfl, rfl⟩

theorem bind {short : ε} {m n : Nat} (fst : Takes short reader m)
    (second : ∀ a, Takes short (next a) n) :
    Takes short (reader >>= next) (m + n) := by
  constructor
  · intro bytes _
    by_cases room : m ≤ bytes.length
    · obtain ⟨a, rest, read, left⟩ := fst.leaves bytes room
      rw [run_bind_ok read]
      exact (second a).fails rest (by omega)
    · exact run_bind_error (fst.fails bytes (not_le.mp room))
  intro bytes room
  obtain ⟨a, mid, read, left⟩ := fst.leaves bytes (by omega)
  obtain ⟨b, rest, nextRead, _⟩ := (second a).leaves mid (by omega)
  rw [run_bind_ok read]
  exact ⟨b, rest, nextRead, by omega⟩

end Takes

/-! ## Bytes and integers -/

def readBytes (short : ε) (n : Nat) : ByteReader ε (List UInt8) := fun bytes =>
  if n ≤ bytes.length then .ok (bytes.take n, bytes.drop n) else .error short

theorem readBytes_ensures (n : Nat) : Ensures (readBytes short n) fun bytes => bytes.length = n := by
  constructor
  intro bytes _ _ res
  change (if n ≤ bytes.length then _ else _) = _ at res
  split at res
  next room =>
    cases res
    exact List.length_take_of_le room
  next => cases res

theorem readBytes_reads (len : bytes.length = n) : Reads (readBytes short n) bytes bytes := by
  constructor
  intro rest
  have room : n ≤ (bytes ++ rest).length := by rw [List.length_append]; omega
  change (if n ≤ (bytes ++ rest).length then _ else _) = _
  rw [if_pos room, List.take_left' len, List.drop_left' len]

theorem readBytes_takes (n : Nat) : Takes short (readBytes short n) n := by
  constructor
  · intro bytes less
    exact if_neg (Nat.not_le_of_lt less)
  intro bytes room
  exact ⟨_, _, if_pos room, by rw [List.length_drop]; omega⟩

def readLE (short : ε) (n : Nat) : ByteReader ε Nat := do
  let bytes ← readBytes short n
  return leValue bytes

theorem readLE_ensures (n : Nat) : Ensures (readLE short n) fun value => value < 2 ^ (8 * n) := by
  refine (readBytes_ensures short n).bind fun bytes len => .pure ?_
  rw [← len]
  exact leValue_lt bytes

theorem readLE_takes (n : Nat) : Takes short (readLE short n) n :=
  (readBytes_takes short n).bind fun _ => .pure short _

theorem readLE_reads {value : Nat} (lt : value < 2 ^ (8 * n)) :
    Reads (readLE short n) (leBytes n value) value := by
  have read := (readBytes_reads short (leBytes_length n value)).map leValue
  rwa [leValue_leBytes_of_lt lt] at read

end KvmServer.Lib
