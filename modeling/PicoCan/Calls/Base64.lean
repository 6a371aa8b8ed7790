import PicoCan.Calls.Text

/-!
# Base64

The standard encoding with padding: three bytes are four numbers of six bits, each written as
a character, and a last group of one or two bytes is filled up with `=`. `decode` accepts
nothing else, in particular no unused bits that are not zero.
-/

namespace Calls

namespace Base64

/-- The character of a number of six bits. -/
def symbol (n : Nat) : UInt8 :=
  if n < 26 then (65 + n).toUInt8
  else if n < 52 then (97 + (n - 26)).toUInt8
  else if n < 62 then (48 + (n - 52)).toUInt8
  else if n = 62 then 43
  else 47

/-- The number of a character. -/
def value (c : UInt8) : Option Nat :=
  if 65 ≤ c ∧ c ≤ 90 then some (c.toNat - 65)
  else if 97 ≤ c ∧ c ≤ 122 then some (c.toNat - 97 + 26)
  else if 48 ≤ c ∧ c ≤ 57 then some (c.toNat - 48 + 52)
  else if c = 43 then some 62
  else if c = 47 then some 63
  else none

def pad : UInt8 := 61

def encode : Bytes → Bytes
  | [] => []
  | [a] => [symbol (a.toNat / 4), symbol (a.toNat % 4 * 16), pad, pad]
  | [a, b] =>
      [symbol (a.toNat / 4), symbol (a.toNat % 4 * 16 + b.toNat / 16),
        symbol (b.toNat % 16 * 4), pad]
  | a :: b :: c :: rest =>
      symbol (a.toNat / 4) :: symbol (a.toNat % 4 * 16 + b.toNat / 16) ::
        symbol (b.toNat % 16 * 4 + c.toNat / 64) :: symbol (c.toNat % 64) :: encode rest

/-- The bytes of a group with one, two or three of them. -/
def group (p q r s : UInt8) : Option Bytes := do
  let p ← value p
  let q ← value q
  let first := (p * 4 + q / 16).toUInt8
  if r = pad then
    if s = pad ∧ q % 16 = 0 then some [first] else none
  else
    let r ← value r
    let second := (q % 16 * 16 + r / 4).toUInt8
    if s = pad then
      if r % 4 = 0 then some [first, second] else none
    else
      let s ← value s
      some [first, second, (r % 4 * 64 + s).toUInt8]

/-- Only the last group may be filled up. -/
def decode : Bytes → Option Bytes
  | [] => some []
  | p :: q :: r :: s :: rest => do
      let bytes ← group p q r s
      if rest = [] then some bytes
      else if s = pad then none
      else
        let more ← decode rest
        some (bytes ++ more)
  | _ => none

/-! ## Characters -/

theorem value_symbol {n : Nat} (small : n < 64) : value (symbol n) = some n := by
  have all : ∀ n : Fin 64, value (symbol n) = some n.val := by decide +kernel
  exact all ⟨n, small⟩

/-- A character that is no number is not the character of one. -/
theorem symbol_ne {n : Nat} {c : UInt8} (none : value c = none) (small : n < 64) :
    symbol n ≠ c := by
  intro same
  rw [← same, value_symbol small] at none
  exact nomatch none

theorem symbol_pad {n : Nat} (small : n < 64) : symbol n ≠ pad :=
  symbol_ne (by decide) small

/-! ## Groups -/

theorem group_one (a : UInt8) :
    group (symbol (a.toNat / 4)) (symbol (a.toNat % 4 * 16)) pad pad = some [a] := by
  have bound := a.toNat_lt
  have first : a.toNat / 4 * 4 + a.toNat % 4 * 16 / 16 = a.toNat := by omega
  have unused : a.toNat % 4 * 16 % 16 = 0 := by omega
  simp only [group, value_symbol (show a.toNat / 4 < 64 by omega),
    value_symbol (show a.toNat % 4 * 16 < 64 by omega), Option.bind_eq_bind, Option.bind_some,
    first, unused, and_self, if_true, Nat.toUInt8, UInt8.ofNat_toNat]

theorem group_two (a b : UInt8) :
    group (symbol (a.toNat / 4)) (symbol (a.toNat % 4 * 16 + b.toNat / 16))
      (symbol (b.toNat % 16 * 4)) pad = some [a, b] := by
  have bound := a.toNat_lt
  have bound' := b.toNat_lt
  have first : a.toNat / 4 * 4 + (a.toNat % 4 * 16 + b.toNat / 16) / 16 = a.toNat := by omega
  have second : (a.toNat % 4 * 16 + b.toNat / 16) % 16 * 16 + b.toNat % 16 * 4 / 4 = b.toNat := by
    omega
  have unused : b.toNat % 16 * 4 % 4 = 0 := by omega
  have small : b.toNat % 16 * 4 < 64 := by omega
  simp only [group, value_symbol (show a.toNat / 4 < 64 by omega),
    value_symbol (show a.toNat % 4 * 16 + b.toNat / 16 < 64 by omega), value_symbol small,
    if_neg (symbol_pad small), Option.bind_eq_bind, Option.bind_some, first, second, unused,
    if_true, Nat.toUInt8, UInt8.ofNat_toNat]

theorem group_three (a b c : UInt8) :
    group (symbol (a.toNat / 4)) (symbol (a.toNat % 4 * 16 + b.toNat / 16))
      (symbol (b.toNat % 16 * 4 + c.toNat / 64)) (symbol (c.toNat % 64)) = some [a, b, c] := by
  have bound := a.toNat_lt
  have bound' := b.toNat_lt
  have bound'' := c.toNat_lt
  have first : a.toNat / 4 * 4 + (a.toNat % 4 * 16 + b.toNat / 16) / 16 = a.toNat := by omega
  have second : (a.toNat % 4 * 16 + b.toNat / 16) % 16 * 16 +
      (b.toNat % 16 * 4 + c.toNat / 64) / 4 = b.toNat := by omega
  have third : (b.toNat % 16 * 4 + c.toNat / 64) % 4 * 64 + c.toNat % 64 = c.toNat := by omega
  have small : b.toNat % 16 * 4 + c.toNat / 64 < 64 := by omega
  have small' : c.toNat % 64 < 64 := by omega
  simp only [group, value_symbol (show a.toNat / 4 < 64 by omega),
    value_symbol (show a.toNat % 4 * 16 + b.toNat / 16 < 64 by omega), value_symbol small,
    value_symbol small', if_neg (symbol_pad small), if_neg (symbol_pad small'), Option.bind_eq_bind,
    Option.bind_some, first, second, third, Nat.toUInt8, UInt8.ofNat_toNat]

/-! ## Texts -/

/-- What has been encoded is decoded. -/
theorem decode_encode (bytes : Bytes) : decode (encode bytes) = some bytes := by
  induction bytes using encode.induct with
  | case1 => rfl
  | case2 a =>
      rw [encode, decode, group_one]
      rfl
  | case3 a b =>
      rw [encode, decode, group_two]
      rfl
  | case4 a b c rest ih =>
      rw [encode, decode, group_three]
      show (if encode rest = [] then some [a, b, c] else if _ = pad then none else
        (decode (encode rest)).bind fun more => some ([a, b, c] ++ more)) = _
      rw [if_neg (symbol_pad (Nat.mod_lt _ (by decide))), ih]
      by_cases last : encode rest = []
      · -- an empty text is that of no bytes
        have none : rest = [] := by
          rw [last] at ih
          exact (Option.some.inj ih).symm
        rw [if_pos last, none]
      · rw [if_neg last]
        rfl

/-- A text holds the characters of numbers and the one that fills it up, and no other. -/
theorem not_mem_encode {c : UInt8} (none : value c = none) (notPad : c ≠ pad) (bytes : Bytes) :
    c ∉ encode bytes := by
  have other {n : Nat} (small : n < 64) : c ≠ symbol n := (symbol_ne none small).symm
  induction bytes using encode.induct with
  | case1 => exact List.not_mem_nil
  | case2 a =>
      have bound := a.toNat_lt
      simp only [encode, List.mem_cons, List.not_mem_nil, or_false, not_or]
      exact ⟨other (by omega), other (by omega), notPad, notPad⟩
  | case3 a b =>
      have bound := a.toNat_lt
      have bound' := b.toNat_lt
      simp only [encode, List.mem_cons, List.not_mem_nil, or_false, not_or]
      exact ⟨other (by omega), other (by omega), other (by omega), notPad⟩
  | case4 a b c rest ih =>
      have bound := a.toNat_lt
      have bound' := b.toNat_lt
      have bound'' := c.toNat_lt
      simp only [encode, List.mem_cons, not_or]
      exact ⟨other (by omega), other (by omega), other (by omega), other (by omega), ih⟩

theorem encode_length (bytes : Bytes) : (encode bytes).length = 4 * ((bytes.length + 2) / 3) := by
  induction bytes using encode.induct with
  | case1 => rfl
  | case2 a =>
      show 4 = 4 * ((1 + 2) / 3)
      decide
  | case3 a b =>
      show 4 = 4 * ((2 + 2) / 3)
      decide
  | case4 a b c rest ih =>
      simp only [encode, List.length_cons, ih]
      omega

end Base64

end Calls
