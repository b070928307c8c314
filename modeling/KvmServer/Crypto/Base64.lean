import KvmServer.Lib.Bytes

/-! # Base64 (`crypto/base64.c`) -/

namespace KvmServer.Crypto
open Lib List

/-- An alphabet of 64 symbols, which differ in the last two. -/
def encBase64With (plus slash : UInt8) (i : Nat) : UInt8 :=
  if i < 26 then UInt8.ofNat (65 + i)
  else if i < 52 then UInt8.ofNat (97 + (i - 26))
  else if i < 62 then UInt8.ofNat (48 + (i - 52))
  else if i = 62 then plus
  else slash

def decBase64With (plus slash c : UInt8) : Option Nat :=
  if 65 ≤ c ∧ c ≤ 90 then some (c.toNat - 65)
  else if 97 ≤ c ∧ c ≤ 122 then some (c.toNat - 97 + 26)
  else if 48 ≤ c ∧ c ≤ 57 then some (c.toNat - 48 + 52)
  else if c = plus then some 62
  else if c = slash then some 63
  else none

def encBase64 : Nat → UInt8 := encBase64With 0x2B 0x2F
def decBase64 : UInt8 → Option Nat := decBase64With 0x2B 0x2F
def encBase64url : Nat → UInt8 := encBase64With 0x2D 0x5F
def decBase64url : UInt8 → Option Nat := decBase64With 0x2D 0x5F

def sextet (c mask shift : Nat) : Nat := (c &&& mask) >>> shift

@[simp] def base64Block (alphabet : Nat → UInt8) (n c : Nat) : List UInt8 :=
  [alphabet (sextet c 0x00FC0000 18), alphabet (sextet c 0x0003F000 12),
    alphabet (sextet c 0x00000FC0 6),
    alphabet (sextet c 0x0000003F 0)].take n

@[simp] def base64LineBreak (crLf : Bool) : List UInt8 := if crLf then [0x0D, 0x0A] else []

/-- What `base64_encode_ex` writes in front of the NUL, when `outCounter` symbols are there. -/
def base64EncodeEx (alphabet : Nat → UInt8) (pad crLf : Bool) (lineSize : Nat) :
    List UInt8 → Nat → List UInt8
  | a :: b :: c :: data, outCounter =>
    base64Block alphabet 4 (a.toNat <<< 16 + b.toNat <<< 8 + c.toNat) ++
      (base64LineBreak (crLf && (outCounter + 4) % lineSize = 0) ++
        base64EncodeEx alphabet pad crLf lineSize data (outCounter + 4))
  | [a, b], _ =>
    base64Block alphabet 3 (a.toNat <<< 16 + b.toNat <<< 8) ++ (if pad then [0x3D] else []) ++
      base64LineBreak crLf
  | [a], _ =>
      base64Block alphabet 2 (a.toNat <<< 16) ++ (if pad then [0x3D, 0x3D] else []) ++ base64LineBreak crLf
  | [], _ => []

/-- The size of the block `base64_encode_ex` allocates; `size_t` has 64 bits. -/
def base64Allocated (length : Nat) (crLf : Bool) (lineSize : Nat) : Nat :=
  let outLen := (length + 3) * 4 % 2 ^ 64 / 3
  let extra := if crLf then (outLen + lineSize - 1) / lineSize * 2 else 0
  outLen + extra + 1

def firstByte (n0 n1 : Nat) : UInt8 := UInt8.ofNat (n0 <<< 2 + n1 >>> 4)
def secondByte (n1 n2 : Nat) : UInt8 := UInt8.ofNat ((n1 &&& 15) <<< 4 + n2 >>> 2)
def thirdByte (n2 n3 : Nat) : UInt8 := UInt8.ofNat ((n2 &&& 3) <<< 6 + n3)

def base64LastBlock (decode : UInt8 → Option Nat) : List UInt8 → Option (List UInt8)
  | a :: b :: rest => do
    let n0 ← decode a
    let n1 ← decode b
    match rest[0]?.bind decode, rest[1]?.bind decode with
    | none, none => some [firstByte n0 n1]
    | none, some _ => none
    | some n2, none => some [firstByte n0 n1, secondByte n1 n2]
    | some n2, some n3 => some [firstByte n0 n1, secondByte n1 n2, thirdByte n2 n3]
  | _ => none

def base64Blocks (decode : UInt8 → Option Nat) : List UInt8 → Option (List UInt8)
  | a :: b :: c :: d :: e :: s => do
    let n0 ← decode a
    let n1 ← decode b
    let n2 ← decode c
    let n3 ← decode d
    let data ← base64Blocks decode (e :: s)
    some (firstByte n0 n1 :: secondByte n1 n2 :: thirdByte n2 n3 :: data)
  | s => base64LastBlock decode s

def base64Decode (decode : UInt8 → Option Nat) (s : List UInt8) (pad : Bool) : Option (List UInt8) :=
  if pad ∧ s.length % 4 > 0 ∨ s.length % 4 = 1 then none else base64Blocks decode s

def cryptoBase64Encode (data : List UInt8) : List UInt8 := base64EncodeEx encBase64 true false 64 data 0
def cryptoBase64Decode (s : List UInt8) : Option (List UInt8) := base64Decode decBase64 s true
def cryptoBase64urlEncode (data : List UInt8) : List UInt8 :=
    base64EncodeEx encBase64url false false 64 data 0
def cryptoBase64urlDecode (s : List UInt8) : Option (List UInt8) := base64Decode decBase64url s false

theorem ofNat_eq {n : Nat} {byte : UInt8} (same : byte.toNat < 256 → n % 256 = byte.toNat) :
    UInt8.ofNat n = byte :=
  UInt8.toNat_inj.mp (UInt8.toNat_ofNat'.trans (same byte.toNat_lt))

/-- Each full line and the last one end in a line break. -/
theorem base64EncodeEx_length (enc : Nat → UInt8) (pad crLf : Bool) (data : List UInt8)
    (n : Nat) (lines : n % 4 = 0) :
    (base64EncodeEx enc pad crLf 64 data n).length + (if crLf then n / 64 * 2 else 0) =
      (if pad then (data.length + 2) / 3 * 4 else (data.length * 4 + 2) / 3) +
        if crLf then ((n + data.length / 3 * 4) / 64 + (data.length + 2) / 3 - data.length / 3) * 2
        else 0 := by
  fun_induction base64EncodeEx enc pad crLf 64 data n with
  | case1 a b c data n ih =>
    replace ih := ih (by omega)
    have third : (data.length + 1 + 1 + 1) / 3 = data.length / 3 + 1 := by omega
    have place : n + (data.length / 3 + 1) * 4 = n + 4 + data.length / 3 * 4 := by omega
    cases pad <;> cases crLf
    all_goals
      simp [apply_ite length, third, place] at ih ⊢
      try split
      all_goals omega
  | case2 | case3 => cases pad <;> cases crLf <;> simp <;> omega
  | case4 => simp

section
variable {enc : Nat → UInt8} {dec : UInt8 → Option Nat} (inv : ∀ i < 64, dec (enc i) = some i)
include inv

theorem decode_block {n : Nat} (a b c : UInt8) (bits : n = a.toNat <<< 16 + b.toNat <<< 8 + c.toNat) :
    ∃ n0 n1 n2 n3, dec (enc (sextet n 0x00FC0000 18)) = some n0 ∧
      dec (enc (sextet n 0x0003F000 12)) = some n1 ∧ dec (enc (sextet n 0x00000FC0 6)) = some n2 ∧
      dec (enc (sextet n 0x0000003F 0)) = some n3 ∧ firstByte n0 n1 = a ∧
      secondByte n1 n2 = b ∧ thirdByte n2 n3 = c := by
  have decoded :
      ∀ shift, dec (enc (sextet n ((2 ^ 6 - 1) <<< shift) shift)) = some (n / 2 ^ shift % 2 ^ 6) := by
    intro shift
    rw [sextet, shiftRight_field n 6 shift]
    exact inv _ (Nat.mod_lt _ (by decide))
  have low4 (n : Nat) : n &&& 15 = n % 16 := Nat.and_two_pow_sub_one_eq_mod n 4
  have low2 (n : Nat) : n &&& 3 = n % 4 := Nat.and_two_pow_sub_one_eq_mod n 2
  have := b.toNat_lt
  have := c.toNat_lt
  refine ⟨_, _, _, _, decoded 18, decoded 12, decoded 6, decoded 0, ofNat_eq fun _ => ?_,
    ofNat_eq fun _ => ?_,
    ofNat_eq fun _ => ?_⟩
  all_goals
    simp only [low4, low2, Nat.shiftLeft_eq, Nat.shiftRight_eq_div_pow]
    omega

variable (pads : dec 0x3D = none) (pad : Bool) {data : List UInt8} (nonempty : data ≠ [])
include pads nonempty

theorem base64Blocks_encode (n : Nat) :
    base64Blocks dec (base64EncodeEx enc pad false 64 data n) = some data := by
  fun_induction base64EncodeEx enc pad false 64 data n with
  | case1 a b c data n ih =>
    obtain ⟨n0, n1, n2, _, d0, d1, d2, d3, fst, second, third⟩ := decode_block inv a b c rfl
    cases rest : base64EncodeEx enc pad false 64 data (n + 4) with
    | nil =>
      have fin : data = [] := by
        by_contra more
        cases rest ▸ ih more
      simp [base64Blocks, base64LastBlock, d0, d1, d2, d3, fst, second, third, fin]
    | cons e s =>
      have more : data ≠ [] := by
        rintro rfl
        cases rest
      have tail := ih more
      rw [rest] at tail
      simp [base64Blocks, d0, d1, d2, d3, fst, second, third, tail]
  | case2 a b =>
    obtain ⟨n0, n1, n2, _, d0, d1, d2, _, fst, second, _⟩ := decode_block inv a b 0 rfl
    cases pad <;> simp_all [base64Blocks, base64LastBlock]
  | case3 a =>
    obtain ⟨n0, n1, _, _, d0, d1, _, _, fst, _⟩ := decode_block inv a 0 0 rfl
    cases pad <;> simp_all [base64Blocks, base64LastBlock]
  | case4 => exact absurd rfl nonempty

theorem base64Decode_encode :
    base64Decode dec (base64EncodeEx enc pad false 64 data 0) pad = some data := by
  have len := base64EncodeEx_length enc pad false data 0 rfl
  unfold base64Decode
  rw [if_neg, base64Blocks_encode inv pads pad nonempty]
  cases pad <;> simp at len ⊢ <;> omega

end

/-- What was encoded is decoded again, and is written inside of the block that was allocated, unless
its size wraps. -/
theorem base64_round_trip (byte : UInt8) (rest : List UInt8) : let data := byte :: rest
    cryptoBase64Decode (cryptoBase64Encode data) = some data ∧
      cryptoBase64urlDecode (cryptoBase64urlEncode data) = some data ∧
      ∀ enc pad crLf, data.length + 3 < 2 ^ 62 →
        (base64EncodeEx enc pad crLf 64 data 0).length + 1 ≤ base64Allocated data.length crLf 64 := by
  intro data
  have nonempty : data ≠ [] := cons_ne_nil byte rest
  refine ⟨base64Decode_encode (by decide) (by decide) true nonempty,
    base64Decode_encode (by decide) (by decide) false nonempty, fun enc pad crLf lt => ?_⟩
  have written := base64EncodeEx_length enc pad crLf data 0 rfl
  have all : data.length / 3 * 4 + 4 ≤ (data.length + 3) * 4 / 3 := by omega
  have part : (data.length + 2) / 3 ≤ data.length / 3 + 1 := by omega
  -- the last line is counted
  have lines : data.length / 3 * 4 / 64 + (data.length + 2) / 3 - data.length / 3 ≤
      ((data.length + 3) * 4 / 3 + 63) / 64 := by
    generalize (data.length + 3) * 4 / 3 = outLen at all
    generalize data.length / 3 = q, (data.length + 2) / 3 = r at all part
    omega
  unfold base64Allocated
  rw [Nat.mod_eq_of_lt (by omega)]
  cases pad <;> cases crLf <;> simp at written ⊢ <;> omega

/-- The size of the allocation wraps around for 2^62 - 3 bytes. -/
theorem base64_not_allocated : ∃ data : List UInt8,
    ¬(base64EncodeEx encBase64 true false 64 data 0).length + 1 ≤
    base64Allocated data.length false 64 := by
  obtain ⟨data, len⟩ : ∃ data : List UInt8, data.length = 2 ^ 62 - 3 := ⟨_, @length_replicate _ _ 0⟩
  refine ⟨data, ?_⟩
  have written := base64EncodeEx_length encBase64 true false data 0 rfl
  rw [len] at written ⊢
  simp only [Bool.false_eq_true, if_false, if_true, Nat.add_zero] at written
  rw [written]
  decide

/-! ## What is accepted -/

def Base64Legal (dec : UInt8 → Option Nat) (pad : Bool) (s : List UInt8) : Prop :=
  ∃ body pads, s = body ++ pads ∧ (∀ c ∈ body, dec c ≠ none) ∧
    if s.length % 4 = 0 then pads ∈ [[], [0x3D], [0x3D, 0x3D]]
    else pads = [] ∧ pad = false ∧ s.length % 4 ≠ 1

def Base64Closed (dec : UInt8 → Option Nat) (s : List UInt8) : Prop :=
  ∀ c ∈ s.drop (s.length - 2), dec c = none → c = 0x3D ∧ s.length % 4 = 0

variable {dec : UInt8 → Option Nat} {pad : Bool} {s data : List UInt8}

/-- All symbols are of the alphabet, but for the last two of the last block. -/
theorem base64Blocks_some (decoded : base64Blocks dec s = some data) :
    ∃ body rest, s = body ++ rest ∧ body.length % 4 = 2 ∧ rest.length ≤ 2 ∧ (∀ c ∈ body, dec c ≠ none) ∧
      (rest[0]?.bind dec = none → rest[1]?.bind dec = none) := by
  fun_induction base64Blocks dec s generalizing data with
  | case1 a b c d e s ih =>
    simp only [Option.bind_eq_bind, Option.bind_eq_some_iff] at decoded
    obtain ⟨n0, d0, n1, d1, _, d2, n3, d3, _, later, -⟩ := decoded
    obtain ⟨body, rest, same, _, short, known, last⟩ := ih later
    refine ⟨a :: b :: c :: d :: body, rest, by rw [same]; rfl, ?_, short, ?_, last⟩
    · simp only [length_cons]
      omega
    · simpa [d0, d1, d2, d3] using known
  | case2 s single =>
    obtain _ | ⟨a, _ | ⟨b, rest⟩⟩ := s
    · cases decoded
    · cases decoded
    simp only [base64LastBlock, Option.bind_eq_bind, Option.bind_eq_some_iff] at decoded
    obtain ⟨n0, d0, n1, d1, decoded⟩ := decoded
    refine ⟨[a, b], rest, rfl, rfl, ?_, by simp [d0, d1], fun none => ?_⟩
    · obtain _ | ⟨c, _ | ⟨d, _ | ⟨e, more⟩⟩⟩ := rest
      · decide
      · simp
      · simp
      · exact absurd rfl (single a b c d e more)
    · rw [none] at decoded
      cases last : rest[1]?.bind dec with
      | none => rfl
      | some n3 =>
        rw [last] at decoded
        cases decoded

theorem base64Closed_of_legal (legal : Base64Legal dec pad s) : Base64Closed dec s := by
  obtain ⟨_, _, rfl, known, legal⟩ := legal
  intro c mem none
  obtain inBody | inPads := mem_append.mp (mem_of_mem_drop mem)
  · exact absurd none (known c inBody)
  split at legal
  · next all =>
    refine ⟨?_, all⟩
    simp only [mem_cons, not_mem_nil, or_false] at legal
    obtain rfl | rfl | rfl := legal <;> simp_all
  · rw [legal.1] at inPads
    cases inPads

theorem base64Legal_of_closed (decoded : base64Decode dec s pad = some data)
    (closed : Base64Closed dec s) :
    Base64Legal dec pad s := by
  unfold base64Decode at decoded
  split at decoded
  · cases decoded
  next compressed =>
    obtain ⟨body, rest, rfl, _, short, known, last⟩ := base64Blocks_some decoded
    have tail : ∀ c ∈ rest, dec c = none → c = 0x3D ∧ (body ++ rest).length % 4 = 0 := by
      intro c mem
      apply closed
      rw [drop_append, show (body ++ rest).length - 2 - body.length = 0 by rw [length_append]; omega]
      exact mem_append_right _ mem
    rw [length_append] at compressed tail
    -- the symbols behind those that have to be there
    obtain _ | ⟨c, _ | ⟨d, _ | ⟨e, _⟩⟩⟩ := rest
    · refine ⟨body, [], rfl, known, ?_⟩
      simp at compressed ⊢
      grind
    · have third : dec c ≠ none := by
        intro none
        have len := (tail c mem_cons_self none).2
        rw [length_singleton] at len
        omega
      refine ⟨body ++ [c], [], (append_nil _).symm,
        forall_mem_append.mpr ⟨known, by simpa using third⟩, ?_⟩
      simp at compressed ⊢
      grind
    · have len : (body ++ [c, d]).length % 4 = 0 := by
        rw [length_append]
        simp only [length_cons, length_nil]
        omega
      unfold Base64Legal
      simp only [if_pos len]
      by_cases third : dec c = none
      · have fourth : dec d = none := last third
        refine ⟨body, [c, d], rfl, known, ?_⟩
        rw [(tail c mem_cons_self third).1, (tail d (by simp) fourth).1]
        decide
      have known' : ∀ x ∈ body ++ [c], dec x ≠ none :=
        forall_mem_append.mpr ⟨known, by simpa using third⟩
      by_cases fourth : dec d = none
      · refine ⟨body ++ [c], [d], by simp, known', ?_⟩
        rw [(tail d (by simp) fourth).1]
        decide
      · exact ⟨body ++ [c] ++ [d], [],
          by simp, forall_mem_append.mpr ⟨known', by simpa using fourth⟩, mem_cons_self⟩
    · simp at short

/-- An accepted text is legal unless one of its last two symbols is taken for padding. -/
theorem base64_strict_iff (s data : List UInt8) :
    (cryptoBase64Decode s = some data → (Base64Legal decBase64 true s ↔ Base64Closed decBase64 s)) ∧
      (cryptoBase64urlDecode s = some data →
        (Base64Legal decBase64url false s ↔ Base64Closed decBase64url s)) :=
  ⟨fun decoded => ⟨base64Closed_of_legal, base64Legal_of_closed decoded⟩,
    fun decoded => ⟨base64Closed_of_legal, base64Legal_of_closed decoded⟩⟩

/-- `QQ!!` is decoded. -/
theorem base64_not_strict : ∃ s data, cryptoBase64Decode s = some data ∧ ¬Base64Legal decBase64 true s :=
  ⟨[0x51, 0x51, 0x21, 0x21], [0x41], rfl,
    fun legal => absurd (base64Closed_of_legal legal 0x21 (by decide) rfl) (by decide)⟩

end KvmServer.Crypto
