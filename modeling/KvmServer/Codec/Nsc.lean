import KvmServer.Lib.Bits
import KvmServer.Lib.Bytes

/-! # NSCodec planes (`codec/nsc_encode.c`, `codec/nsc.c`)

A plane is sent as literals and runs followed by its last four bytes, or as it is when that is not
shorter.  A read or a write outside of the buffers is an error of its own here. -/

namespace KvmServer.Codec
open Lib List

inductive NscStop where
  /-- The decoder returns `FALSE`. -/
  | refused
  /-- A byte outside of the source is read, or a byte behind the plane is written. -/
  | outside
deriving DecidableEq

/-! ## Encoding -/

def nscToken (value : UInt8) (runlength : Nat) : List UInt8 :=
  if runlength = 1 then [value]
  else if runlength < 256 then [value, value, UInt8.ofNat (runlength - 2)]
  else [value, value, 0xFF] ++ leBytes 4 runlength

def nscEncodeLoop (originalSize : Nat) : List UInt8 → Nat → List UInt8 → List UInt8 × List UInt8
  | [], _, out => (out, [])
  | value :: rest, runlength, out =>
    let left := rest.length + 1
    if left > 4 ∧ out.length < sub32 originalSize 4 then
      if left > 5 ∧ rest.head? = some value then nscEncodeLoop originalSize rest (runlength + 1) out
      else nscEncodeLoop originalSize rest 1 (out ++ nscToken value runlength)
    else (out, value :: rest)

def nscRleEncode (plane : List UInt8) : List UInt8 × Nat :=
  let (out, rest) := nscEncodeLoop plane.length plane 1 []
  (if out.length < sub32 plane.length 4 then out ++ rest.take 4 else out, out.length + 4)

def nscRleCompressPlane (plane : List UInt8) : List UInt8 :=
  if plane.length = 0 then []
  else
    let (encoded, planeSize) := nscRleEncode plane
    if planeSize < plane.length then encoded else plane

def nscPlaneByteCount (plane : List UInt8) : Nat :=
  if plane.length = 0 then 0
  else
    let planeSize := (nscRleEncode plane).2
    if planeSize < plane.length then planeSize else plane.length

/-! ## Decoding -/

structure NscDecoder where
  input : List UInt8
  inSize : Nat
  out : List UInt8
  (outSize left : Nat)

def nscTake (s : NscDecoder) : Except NscStop (UInt8 × NscDecoder) :=
  match s.input with
  | [] => .error .outside
  | value :: rest => .ok (value, { s with input := rest, inSize := s.inSize - 1 })

def nscFill (originalSize : Nat) (s : NscDecoder) (len : Nat) (value : UInt8) :
    Except NscStop NscDecoder :=
  if s.out.length + len > originalSize then .error .outside
  else .ok { s with
    out := s.out ++ .replicate len value, outSize := s.outSize - len, left := s.left - len }

def nscRunLength (s : NscDecoder) : Except NscStop (Nat × NscDecoder) :=
  if s.inSize < 1 then .error .refused
  else
    match s.input with
    | [] => .error .outside
    | first :: rest =>
      if first < 0xFF then .ok (first.toNat + 2, { s with input := rest, inSize := s.inSize - 1 })
      else if s.inSize < 5 then .error .refused
      else if rest.length < 4 then .error .outside
      else .ok (leValue (rest.take 4), { s with input := rest.drop 4, inSize := s.inSize - 5 })

def nscDecodeStep (originalSize : Nat) (s : NscDecoder) : Except NscStop NscDecoder :=
  if s.inSize < 1 then .error .refused
  else
    match nscTake s with
    | .error stop => .error stop
    | .ok (value, s) =>
      if s.left = 5 then if s.outSize < 1 then .error .refused else nscFill originalSize s 1 value
      else if s.inSize < 1 then .error .refused
      else
        match nscTake s with
        | .error stop => .error stop
        | .ok (next, s') =>
          if value = next then
            match nscRunLength s' with
            | .error stop => .error stop
            | .ok (len, s) =>
              if s.outSize < len ∨
                s.left < len then .error .refused else nscFill originalSize s len value
          else if s.outSize < 1 then .error .refused
          else nscFill originalSize s 1 value

def nscDecodeLoop (originalSize : Nat) : Nat → NscDecoder → Except NscStop NscDecoder
  | 0, _ => .error .refused
  | fuel + 1, s =>
    if s.left > 4 then
      match nscDecodeStep originalSize s with
      | .error stop => .error stop
      | .ok s => nscDecodeLoop originalSize fuel s
    else .ok s

def nscRleDecode (source : List UInt8) (outSize originalSize : Nat) : Except NscStop (List UInt8) :=
  match nscDecodeLoop originalSize
    (source.length + 1) ⟨source, source.length, [], outSize, originalSize⟩ with
  | .error stop => .error stop
  | .ok s =>
    if s.outSize < 4 ∨ s.left < 4 then .error .refused
    else if s.inSize < 4 then .error .refused
    else if s.input.length < 4 ∨ s.out.length + 4 > originalSize then .error .outside
    else .ok (s.out ++ s.input.take 4)

def nscRleDecompressData (planeBuffersLength : Nat) :
    List UInt8 → List (Nat × Nat) → Except NscStop (List (List UInt8))
  | _, [] => .ok []
  | rle, (originalSize, planeSize) :: sizes =>
    if rle.length < planeSize then .error .refused
    else
      let plane :=
        if planeSize = 0 then
          if planeBuffersLength < originalSize then .error .refused
            else .ok (.replicate originalSize 0xFF)
        else if planeSize < originalSize then nscRleDecode rle planeBuffersLength originalSize
        else if planeBuffersLength < originalSize then .error .refused
        else if rle.length < originalSize then .error .refused
        else .ok (rle.take originalSize)
      match plane with
      | .error stop => .error stop
      | .ok plane =>
        match nscRleDecompressData planeBuffersLength (rle.drop planeSize) sizes with
        | .error stop => .error stop
        | .ok planes => .ok (plane :: planes)

/-! ## Safety -/

structure NscDecoder.Counts (originalSize : Nat) (s : NscDecoder) : Prop where
  input : s.inSize = s.input.length
  output : s.out.length + s.left = originalSize

theorem nscFill_counts {originalSize len : Nat} {s : NscDecoder} {value : UInt8}
    (counts : s.Counts originalSize)
    (fits : len ≤ s.left) : ∃ s', nscFill originalSize s len value = .ok s' ∧
    s'.Counts originalSize ∧ s'.input = s.input := by
  have output := counts.output
  refine ⟨_, if_neg (by omega), ⟨counts.input, ?_⟩, rfl⟩
  simp only [length_append, length_replicate]
  omega

theorem nscRunLength_safe {s : NscDecoder} (count : s.inSize = s.input.length) :
    nscRunLength s = .error .refused ∨ ∃ len rest, rest.length ≤ s.input.length ∧
      nscRunLength s = .ok (len, { s with input := rest, inSize := rest.length }) := by
  obtain ⟨input, inSize, _, _, _⟩ := s
  dsimp only at count
  subst count
  unfold nscRunLength
  cases input with
  | nil => exact Or.inl rfl
  | cons _ rest =>
    rw [if_neg (by simp)]
    dsimp only
    split
    · exact Or.inr ⟨_, rest, Nat.le_succ _, rfl⟩
    split
    · exact Or.inl rfl
    next long =>
      rw [length_cons] at long
      rw [if_neg (by omega)]
      refine Or.inr ⟨leValue (rest.take 4), rest.drop 4, ?_, ?_⟩
      · simp only [length_drop, length_cons]
        omega
      simp only [length_drop, length_cons]
      congr 3

variable {originalSize : Nat} {s : NscDecoder} {plane : List UInt8}

theorem nscDecodeStep_safe (counts : s.Counts originalSize) (more : s.left > 4) :
    nscDecodeStep originalSize s = .error .refused ∨
      ∃ s', nscDecodeStep originalSize s = .ok s' ∧ s'.Counts originalSize ∧
      s'.input.length < s.input.length := by
  obtain ⟨input, _, out, outSize, left⟩ := s
  obtain ⟨count, output⟩ := counts
  dsimp only at count output more
  subst count
  -- a fill that the decoder has checked
  have filled (rest : List UInt8) (lt : rest.length < input.length) (len : Nat)
    (value : UInt8) (fits : len ≤ left) :
      ∃ s', nscFill originalSize ⟨rest, rest.length, out, outSize, left⟩ len value = .ok s' ∧
        s'.Counts originalSize ∧ s'.input.length < input.length := by
    obtain ⟨s', written, kept, same⟩ :=
      @nscFill_counts originalSize len ⟨rest, rest.length, out, outSize, left⟩ value
      ⟨rfl, output⟩ fits
    exact ⟨s', written, kept, by rw [same]; exact lt⟩
  unfold nscDecodeStep
  cases input with
  | nil => exact Or.inl rfl
  | cons value rest =>
    rw [if_neg (by simp)]
    simp only [nscTake, length_cons, Nat.add_sub_cancel]
    split
    · split
      · exact Or.inl rfl
      · exact Or.inr (filled rest (Nat.lt_succ_self _) 1 value (by omega))
    cases rest with
    | nil => exact Or.inl rfl
    | cons next rest =>
      rw [if_neg (by simp)]
      simp only [length_cons, Nat.add_sub_cancel]
      split
      · cases @nscRunLength_safe ⟨rest, rest.length, out, outSize, left⟩ rfl with
        | inl rejected =>
          rw [rejected]
          exact Or.inl rfl
        | inr read =>
          obtain ⟨len, rest', lt, read⟩ := read
          dsimp only at lt
          rw [read]
          dsimp only
          split
          · exact Or.inl rfl
          next => exact Or.inr (filled rest' (by simp only [length_cons]; omega) len value (by omega))
      · split
        · exact Or.inl rfl
        · exact Or.inr (filled (next :: rest) (by simp only [length_cons]; omega) 1 value (by omega))

theorem nscDecodeLoop_safe {fuel : Nat} (counts : s.Counts originalSize) (room : s.input.length < fuel) :
    nscDecodeLoop originalSize fuel s = .error .refused ∨
      ∃ s', nscDecodeLoop originalSize fuel s = .ok s' ∧ s'.Counts originalSize ∧ s'.left ≤ 4 := by
  induction fuel generalizing s with
  | zero => exact absurd room (Nat.not_lt_zero _)
  | succ fuel ih =>
    rw [nscDecodeLoop]
    split
    next more =>
      cases nscDecodeStep_safe counts more with
      | inl rejected =>
        rw [rejected]
        exact Or.inl rfl
      | inr dec =>
        obtain ⟨s', dec, counts', _⟩ := dec
        rw [dec]
        exact ih counts' (by omega)
    next => exact Or.inr ⟨s, rfl, counts, by omega⟩

theorem nscRleDecode_safe (src : List UInt8) (outSize originalSize : Nat) :
    nscRleDecode src outSize originalSize = .error .refused ∨
      ∃ plane, nscRleDecode src outSize originalSize = .ok plane ∧ plane.length = originalSize := by
  unfold nscRleDecode
  cases nscDecodeLoop_safe (⟨rfl, zero_add _⟩ : NscDecoder.Counts originalSize
    ⟨src, src.length, [], outSize, originalSize⟩) (Nat.lt_succ_self _) with
  | inl rejected =>
    rw [rejected]
    exact Or.inl rfl
  | inr dec =>
    obtain ⟨s, dec, ⟨_, _⟩, _⟩ := dec
    rw [dec]
    dsimp only
    split
    · exact Or.inl rfl
    split
    · exact Or.inl rfl
    next _ _ =>
      rw [if_neg (by omega)]
      refine Or.inr ⟨_, rfl, ?_⟩
      rw [length_append, length_take_of_le (by omega)]
      omega

/-! ## Round trip -/

def nscTokens : List UInt8 → Nat → List UInt8
  | [], _ => []
  | value :: rest, runlength =>
    if rest.length < 4 then []
    else if rest.length ≥ 5 ∧ rest.head? = some value then nscTokens rest (runlength + 1)
    else nscToken value runlength ++ nscTokens rest 1

theorem nscEncodeLoop_eq {out : List UInt8} {runlength : Nat}
    (room : (nscEncodeLoop originalSize plane runlength out).1.length < sub32 originalSize 4)
    (long : 4 ≤ plane.length) :
    nscEncodeLoop originalSize plane runlength out =
    (out ++ nscTokens plane runlength, plane.drop (plane.length - 4)) ∧
      out.length ≤ (nscEncodeLoop originalSize plane runlength out).1.length := by
  induction plane generalizing runlength out with
  | nil => exact absurd long (by decide)
  | cons value rest ih =>
    rw [nscEncodeLoop] at room ⊢
    rw [nscTokens]
    by_cases last : rest.length < 4
    · rw [if_neg (by omega), if_pos last, append_nil, show (value :: rest).length - 4 = 0 by simp; omega]
      exact ⟨rfl, le_refl _⟩
    rw [if_neg last]
    split at room
    next go =>
      rw [if_pos go]
      have drops : (value :: rest).drop ((value :: rest).length - 4) = rest.drop (rest.length - 4) := by
        rw [length_cons, show rest.length + 1 - 4 = rest.length - 4 + 1 by omega, drop_succ_cons]
      rw [drops]
      split at room
      next run =>
        rw [if_pos run, if_pos ⟨by omega, run.2⟩]
        exact ih room (by omega)
      next other =>
        rw [if_neg other, if_neg (fun run => other ⟨by omega, run.2⟩)]
        obtain ⟨same, grown⟩ := ih room (by omega)
        rw [same] at grown ⊢
        rw [append_assoc]
        exact ⟨rfl, by simp only [length_append] at grown ⊢; omega⟩
    next =>
      -- the loop has given up: there is no room
      dsimp only at room
      omega

theorem nscTokens_head {value : UInt8} {rest : List UInt8} (runlength : Nat) (long : 4 ≤ rest.length) :
    (nscTokens (value :: rest) runlength).head? = some value := by
  induction rest generalizing value runlength with
  | nil => exact absurd long (by decide)
  | cons next rest ih =>
    rw [nscTokens, if_neg (by omega)]
    split
    next run =>
      cases (Option.some_inj.mp run.2 : next = value)
      exact ih _ (by simpa using run.1)
    next =>
      unfold nscToken
      repeat' split
      all_goals rfl

section
variable {originalSize outSize : Nat} {out tail : List UInt8}

def nscAt (originalSize outSize : Nat) (input out : List UInt8) : NscDecoder :=
  ⟨input, input.length, out, outSize - out.length, originalSize - out.length⟩

theorem nscFill_at {input : List UInt8} {len : Nat} {value : UInt8}
    (fits : out.length + len ≤ originalSize) :
    nscFill originalSize (nscAt originalSize outSize input out) len value =
      .ok (nscAt originalSize outSize input (out ++ .replicate len value)) := by
  rw [nscFill, if_neg (by simp only [nscAt]; omega)]
  simp only [nscAt, length_append, length_replicate, Nat.sub_sub]

variable {val : UInt8} {input plane : List UInt8} {runlength : Nat}

theorem nscDecodeStep_literal (room : originalSize ≤ outSize) (more : out.length + 4 < originalSize)
    (next : out.length + 5 = originalSize ∨ ∃ other rest, input = other :: rest ∧ val ≠ other) :
    nscDecodeStep originalSize (nscAt originalSize outSize (val :: input) out) =
      .ok (nscAt originalSize outSize input (out ++ [val])) := by
  have filled := @nscFill_at originalSize outSize out input 1 val (by omega)
  simp only [nscDecodeStep, nscTake, nscAt, length_cons, Nat.add_sub_cancel,
    Nat.succ_lt_succ_iff, Nat.not_lt_zero, if_false] at filled ⊢
  cases next with
  | inl last => rw [if_pos (by omega), if_neg (by omega), filled, replicate_one]
  | inr other =>
    obtain ⟨other, rest, rfl, diff⟩ := other
    by_cases last : originalSize - out.length = 5
    · rw [if_pos last, if_neg (by omega), filled, replicate_one]
    rw [if_neg last, if_neg (by simp)]
    simp only [if_neg diff]
    rw [if_neg (by omega), filled, replicate_one]

theorem nscRunLength_token (long : 2 ≤ runlength) (fits : runlength < 2 ^ 32) (val : UInt8)
    (input : List UInt8) (s : NscDecoder) (count : s.inSize = s.input.length)
    (token : val :: val :: s.input = nscToken val runlength ++ input) :
    nscRunLength s = .ok (runlength, { s with input := input, inSize := input.length }) := by
  unfold nscToken at token
  rw [if_neg (by omega)] at token
  obtain ⟨bs, inSize, _, _, _⟩ := s
  dsimp only at count token
  subst count
  split at token
  next =>
    have rest : bs = UInt8.ofNat (runlength - 2) :: input := by
      simpa using token
    subst rest
    have lt : (UInt8.ofNat (runlength - 2)).toNat = runlength - 2 := by
      rw [UInt8.toNat_ofNat']
      omega
    have lo : UInt8.ofNat (runlength - 2) < 0xFF := by
      rw [UInt8.lt_iff_toNat_lt, lt]
      change runlength - 2 < 255
      omega
    simp only [nscRunLength, length_cons, if_pos lo, lt]
    rw [if_neg (by omega)]
    congr 2
    omega
  next =>
    have rest : bs = 0xFF :: (leBytes 4 runlength ++ input) := by
      simpa using token
    subst rest
    have taken : (leBytes 4 runlength ++ input).take 4 = leBytes 4 runlength :=
      take_left' (leBytes_length 4 runlength)
    have dropped : (leBytes 4 runlength ++ input).drop 4 = input :=
      drop_left' (leBytes_length 4 runlength)
    simp only [nscRunLength, length_cons, taken, dropped, length_append, leBytes_length]
    rw [if_neg (by omega), if_neg (by decide), if_neg (by omega), if_neg (by omega),
      leValue_leBytes_of_lt fits]
    congr 3
    omega

theorem nscDecodeStep_run (room : originalSize ≤ outSize)
    (long : 2 ≤ runlength) (fits : runlength < 2 ^ 32)
    (more : out.length + runlength + 4 ≤ originalSize) :
    nscDecodeStep originalSize (nscAt originalSize outSize (nscToken val runlength ++ input) out) =
      .ok (nscAt originalSize outSize input (out ++ .replicate runlength val)) := by
  have filled := @nscFill_at originalSize outSize out input runlength val (by omega)
  obtain ⟨bs, token⟩ : ∃ bs, val :: val :: bs = nscToken val runlength ++ input := by
    unfold nscToken
    rw [if_neg (by omega)]
    split
    · exact ⟨_, rfl⟩
    · exact ⟨_, rfl⟩
  have read := nscRunLength_token long fits val input
    ⟨bs, bs.length, out, outSize - out.length, originalSize - out.length⟩ rfl token
  rw [← token]
  simp only [nscDecodeStep, nscTake, nscAt, length_cons, Nat.add_sub_cancel] at filled ⊢
  rw [if_neg (by omega), if_neg (by omega), if_neg (by omega), if_pos trivial, read]
  dsimp only
  rw [if_neg (by omega), filled]

theorem nscDecodeLoop_tokens {rest : List UInt8} {runlength fuel : Nat} (room : originalSize ≤ outSize)
    (begun : 1 ≤ runlength) (fits : runlength + rest.length < 2 ^ 32) (long : 3 ≤ rest.length)
    (single : rest.length = 3 → runlength = 1)
    (size : out.length + runlength + rest.length = originalSize)
    (enough : (nscTokens (val :: rest) runlength).length < fuel) :
    nscDecodeLoop originalSize fuel
    (nscAt originalSize outSize (nscTokens (val :: rest) runlength ++ tail) out) =
      .ok (nscAt originalSize outSize tail
        (out ++ (replicate (runlength - 1) val ++ (val :: rest).take (rest.length - 3)))) := by
  induction rest generalizing val runlength fuel out with
  | nil => exact absurd long (by decide)
  | cons next rest ih =>
    obtain ⟨fuel, rfl⟩ : ∃ more, fuel = more + 1 := ⟨fuel - 1, by omega⟩
    rw [length_cons] at fits long single size ⊢
    rw [nscTokens, length_cons] at enough ⊢
    by_cases last : rest.length + 1 < 4
    · rw [if_pos last, show rest.length + 1 - 3 =
        0 by omega, single (by omega), nscDecodeLoop, if_neg (by dsimp only [nscAt]; omega)]
      simp
    have all : replicate (runlength - 1) val ++ (val :: next :: rest).take (rest.length + 1 - 3) =
        replicate runlength val ++ (next :: rest).take (rest.length - 3) := by
      obtain ⟨more, rfl⟩ : ∃ more, runlength = more + 1 := ⟨runlength - 1, by omega⟩
      rw [show rest.length + 1 - 3 = rest.length - 3 +
        1 by omega, take_succ_cons, replicate_succ', append_assoc]
      rfl
    rw [if_neg last] at enough ⊢
    by_cases run : rest.length + 1 ≥ 5 ∧ (next :: rest).head? = some val
    · -- the run goes on
      rw [if_pos run] at enough ⊢
      cases (Option.some_inj.mp run.2 : next = val)
      rw [ih (by omega) (by omega) (by omega) (by omega) (by omega) enough, all]
      rfl
    rw [if_neg run] at enough ⊢
    rw [length_append] at enough
    have more : nscDecodeStep originalSize
        (nscAt originalSize outSize
          (nscToken val runlength ++ (nscTokens (next :: rest) 1 ++ tail)) out) =
          .ok (nscAt originalSize outSize (nscTokens (next :: rest) 1 ++ tail)
            (out ++ .replicate runlength val)) := by
      by_cases lit : runlength = 1
      · subst lit
        refine nscDecodeStep_literal room (by omega) ?_
        by_cases four : rest.length = 3
        · exact Or.inl (by omega)
        obtain ⟨bs, tokens⟩ := head?_eq_some_iff.mp (@nscTokens_head next rest 1 (by omega))
        refine Or.inr
          ⟨next, bs ++ tail, by rw [tokens]; rfl, fun same => run ⟨by omega, by rw [same]; rfl⟩⟩
      · exact nscDecodeStep_run room (by omega) (by omega) (by omega)
    have token : 1 ≤ (nscToken val runlength).length := by
      unfold nscToken
      repeat' split
      all_goals simp
    rw [nscDecodeLoop, if_pos (by dsimp only [nscAt]; omega), append_assoc, more]
    dsimp only
    rw [ih (by omega) (by omega) (by omega) (fun _ => rfl) (by simp; omega) (by omega),
      all, append_assoc]
    rfl

section
variable (short : (nscRleEncode plane).2 < plane.length)
include short

theorem nscEncodeLoop_short (fits : plane.length < 2 ^ 32) :
    (nscTokens plane 1).length < sub32 plane.length 4 ∧
      nscEncodeLoop plane.length plane 1 [] = (nscTokens plane 1, plane.drop (plane.length - 4)) := by
  unfold nscRleEncode at short
  dsimp only at short
  have room : (nscEncodeLoop plane.length plane 1 []).1.length < sub32 plane.length 4 := by
    rw [sub32_of_le (by omega) fits]
    omega
  obtain ⟨enc, -⟩ := nscEncodeLoop_eq room (by omega)
  rw [enc] at room
  exact ⟨room, enc⟩

theorem nscRleEncode_eq (fits : plane.length < 2 ^ 32) :
    nscRleEncode plane =
    (nscTokens plane 1 ++ plane.drop (plane.length - 4), (nscTokens plane 1).length + 4) := by
  obtain ⟨room, enc⟩ := nscEncodeLoop_short short fits
  unfold nscRleEncode
  rw [enc]
  dsimp only
  rw [if_pos room, take_of_length_le (by simp; omega)]

theorem nscRleDecode_encode (room : plane.length ≤ outSize) (fits : plane.length < 2 ^ 32) :
    nscRleDecode ((nscRleEncode plane).1 ++ tail) outSize plane.length = .ok plane := by
  have long : 4 < plane.length := lt_of_le_of_lt (Nat.le_add_left _ _) short
  rw [nscRleEncode_eq short fits]
  cases plane with
  | nil => exact absurd long (by decide)
  | cons val rest =>
    rw [length_cons] at long room fits ⊢
    have dec :=
      @nscDecodeLoop_tokens (rest.length + 1) outSize [] ((val :: rest).drop (rest.length + 1 - 4) ++ tail)
      val rest 1 _ room (le_refl 1) (by omega) (by omega) (fun _ => rfl) (by simp; omega)
      (show _ <
        (nscTokens (val :: rest) 1 ++ (val :: rest).drop (rest.length + 1 - 4) ++ tail).length + 1 by
        simp only [length_append]; omega)
    rw [nscRleDecode, append_assoc]
    rw [append_assoc] at dec
    unfold nscAt at dec
    simp only [length_nil, Nat.sub_zero] at dec
    rw [dec]
    have lens : ((val :: rest).take (rest.length - 3)).length = rest.length - 3 :=
      length_take_of_le (by rw [length_cons]; omega)
    have left : ((val :: rest).drop (rest.length + 1 - 4)).length = 4 := by
      rw [length_drop, length_cons]
      omega
    simp only [Nat.sub_self, replicate_zero, nil_append, lens, length_append, left]
    rw [if_neg (by omega), if_neg (by omega), if_neg (by omega), take_left' left,
      show rest.length + 1 - 4 = rest.length - 3 by omega, take_append_drop]

end

end

theorem nscRleCompressPlane_length (fits : plane.length < 2 ^ 32) :
    (nscRleCompressPlane plane).length = nscPlaneByteCount plane := by
  unfold nscRleCompressPlane nscPlaneByteCount
  split
  · rfl
  dsimp only
  split
  next short =>
    have long : 4 < plane.length := lt_of_le_of_lt (Nat.le_add_left _ _) short
    rw [nscRleEncode_eq short fits, length_append, length_drop]
    omega
  · rfl

theorem nscRleDecompressData_compressed {plBufsLen : Nat} (planes : List (List UInt8))
    (sized : ∀ plane ∈ planes, plane.length ≤ plBufsLen ∧ plane.length < 2 ^ 32) :
    nscRleDecompressData plBufsLen (planes.flatMap nscRleCompressPlane)
      (planes.map fun plane => (plane.length, nscPlaneByteCount plane)) = .ok planes := by
  induction planes with
  | nil => rfl
  | cons plane planes ih =>
    obtain ⟨⟨room, fits⟩, others⟩ := forall_mem_cons.mp sized
    rw [flatMap_cons, map_cons, nscRleDecompressData, ← nscRleCompressPlane_length fits,
      if_neg (by simp), drop_left, ih others]
    by_cases none : plane.length = 0
    · cases eq_nil_of_length_eq_zero none
      rfl
    have some : (nscRleEncode plane).2 ≥ 4 := Nat.le_add_left _ _
    by_cases short : (nscRleEncode plane).2 < plane.length
    · have sent : nscRleCompressPlane plane = (nscRleEncode plane).1 := by
        rw [nscRleCompressPlane, if_neg none]
        dsimp only
        rw [if_pos short]
      have count : (nscRleCompressPlane plane).length = (nscRleEncode plane).2 := by
        rw [nscRleCompressPlane_length fits, nscPlaneByteCount, if_neg none]
        rw [if_pos short]
      rw [count, if_neg (by omega), if_pos short, sent, nscRleDecode_encode short room fits]
    have sent : nscRleCompressPlane plane = plane := by
      rw [nscRleCompressPlane, if_neg none]
      dsimp only
      rw [if_neg short]
    rw [sent, if_neg none, if_neg (lt_irrefl _), if_neg (by omega), if_neg (by simp), take_left]

/-- What is sent for the planes decodes to the planes. On any source the decoder refuses, or fills
the plane from
    bytes of the source only. -/
theorem nsc_planes_restored (planeBuffersLength : Nat) :
    (∀ planes : List (List UInt8),
      (∀ plane ∈ planes, plane.length ≤ planeBuffersLength ∧ plane.length < 2 ^ 32) →
      nscRleDecompressData planeBuffersLength (planes.flatMap nscRleCompressPlane)
        (planes.map fun plane => (plane.length, nscPlaneByteCount plane)) = .ok planes) ∧
    ∀ source outSize originalSize, nscRleDecode source outSize originalSize = .error .refused ∨
      ∃ plane, nscRleDecode source outSize originalSize = .ok plane ∧ plane.length = originalSize :=
  ⟨nscRleDecompressData_compressed, nscRleDecode_safe⟩

/-- A run, a plane of three bytes and an empty one. -/
theorem nsc_planes_restored_three :
    nscRleDecompressData 16
    ([[7, 7, 7, 7, 7, 7, 7, 7, 7, 1, 2, 3, 4], [9, 9, 9], []].flatMap nscRleCompressPlane)
      ([[7, 7, 7, 7, 7, 7, 7, 7, 7, 1, 2, 3, 4], [9, 9, 9], []].map fun plane =>
        (plane.length, nscPlaneByteCount plane)) =
      .ok [[7, 7, 7, 7, 7, 7, 7, 7, 7, 1, 2, 3, 4], [9, 9, 9], []] :=
  (nsc_planes_restored 16).1 _ (by decide)

end KvmServer.Codec
