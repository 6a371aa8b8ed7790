import PicoCan.Calls.Base64
import PicoCan.Calls.Stores
import PicoCan.Http.Digest

/-!
# Base64 in its destination

`base64_encode_small` with the array it writes to, every store included, also those before
it gives up. `base64EncodeSmall` is what is left of it when only the text matters.
-/

namespace PicoCan.Http

open Calls
open PicoCan.Can (eNoMem)

/-- The four stores of a round. -/
def putGroup (src : Bytes) (out : Nat) (dst : Cells) : Cells :=
  let value := (src.getD 0 0).toUInt32 <<< 16 ||| (src.getD 1 0).toUInt32 <<< 8 |||
    (src.getD 2 0).toUInt32
  let remain := src.length
  let dst := dst.store out (base64Digit (value >>> 18))
  let dst := dst.store (out + 1) (base64Digit (value >>> 12))
  let dst := dst.store (out + 2) (if remain > 1 then base64Digit (value >>> 6) else 61)
  dst.store (out + 3) (if remain > 2 then base64Digit value else 61)

/-- The loop, with the source from index `i` on: `out` and the destination behind it, or the
destination when it gave up. `out + 4` is a sum of 32-bit sizes. -/
def base64StoreLoop (dstLen : Nat) :
    (fuel : Nat) → (src : Bytes) → (out : Nat) → Cells → Except Cells (Nat × Cells)
  | 0, _, out, dst => .ok (out, dst)
  | fuel + 1, src, out, dst =>
      if src = [] then .ok (out, dst)
      else if (out + 4) % 2 ^ 32 ≥ dstLen then .error dst
      else base64StoreLoop dstLen fuel (src.drop 3) ((out + 4) % 2 ^ 32) (putGroup src out dst)

/-- The return value of `base64_encode_small`, and the destination. -/
def base64EncodeInto (src : Bytes) (dst : Cells) (dstLen : Nat) : Int × Cells :=
  match base64StoreLoop dstLen src.length src 0 dst with
  | .error dst => (-eNoMem, dst)
  | .ok (out, dst) => (0, dst.store out 0)

/-! ## Digits -/

/-- A digit is the character of the last six bits. -/
theorem base64Digit_eq (value : UInt32) : base64Digit value = Base64.symbol (value.toNat % 64) := by
  have all : ∀ n : Fin 64, base64Alphabet.getD n 0 = Base64.symbol n := by decide +kernel
  have last : (value &&& 0x3f).toNat = value.toNat % 64 := by
    rw [UInt32.toNat_and]
    exact Nat.and_two_pow_sub_one_eq_mod value.toNat 6
  rw [base64Digit, last]
  exact all ⟨value.toNat % 64, Nat.mod_lt _ (by decide)⟩

/-- The three bytes of a round, joined. -/
theorem groupValue_toNat (a b c : UInt8) :
    (a.toUInt32 <<< 16 ||| b.toUInt32 <<< 8 ||| c.toUInt32).toNat =
      65536 * a.toNat + 256 * b.toNat + c.toNat := by
  have joined := joinedBytes_toNat 0 a b c
  have zero : ((0 : UInt8).toUInt32 <<< 24) ||| (a.toUInt32 <<< 16) = a.toUInt32 <<< 16 := by
    show (0 : UInt32) ||| _ = _
    exact UInt32.zero_or
  rw [zero] at joined
  rw [joined]
  show 256 * (256 * (256 * (256 * 0 + 0) + a.toNat) + b.toNat) + c.toNat = _
  omega

theorem digit_shift (value : UInt32) {shift : UInt32} (small : shift.toNat < 32) :
    base64Digit (value >>> shift) = Base64.symbol (value.toNat / 2 ^ shift.toNat % 64) := by
  rw [base64Digit_eq, UInt32.toNat_shiftRight, Nat.mod_eq_of_lt small, Nat.shiftRight_eq_div_pow]

/-- The characters of a round are those of the standard's group. -/
theorem base64Group_encode (src : Bytes) (some : src ≠ []) :
    base64Group src ++ Base64.encode (src.drop 3) = Base64.encode src := by
  have digits (a b c : UInt8) :
      base64Digit ((a.toUInt32 <<< 16 ||| b.toUInt32 <<< 8 ||| c.toUInt32) >>> 18) =
          Base64.symbol (a.toNat / 4) ∧
        base64Digit ((a.toUInt32 <<< 16 ||| b.toUInt32 <<< 8 ||| c.toUInt32) >>> 12) =
          Base64.symbol (a.toNat % 4 * 16 + b.toNat / 16) ∧
        base64Digit ((a.toUInt32 <<< 16 ||| b.toUInt32 <<< 8 ||| c.toUInt32) >>> 6) =
          Base64.symbol (b.toNat % 16 * 4 + c.toNat / 64) ∧
        base64Digit (a.toUInt32 <<< 16 ||| b.toUInt32 <<< 8 ||| c.toUInt32) =
          Base64.symbol (c.toNat % 64) := by
    have bound := a.toNat_lt
    have bound' := b.toNat_lt
    have bound'' := c.toNat_lt
    rw [digit_shift _ (by decide), digit_shift _ (by decide), digit_shift _ (by decide),
      base64Digit_eq, groupValue_toNat]
    refine ⟨congrArg _ ?_, congrArg _ ?_, congrArg _ ?_, congrArg _ ?_⟩
    · show (65536 * a.toNat + 256 * b.toNat + c.toNat) / 262144 % 64 = _
      omega
    · show (65536 * a.toNat + 256 * b.toNat + c.toNat) / 4096 % 64 = _
      omega
    · show (65536 * a.toNat + 256 * b.toNat + c.toNat) / 64 % 64 = _
      omega
    · omega
  cases src with
  | nil => exact absurd rfl some
  | cons a src =>
      cases src with
      | nil =>
          obtain ⟨first, second, -, -⟩ := digits a 0 0
          have same := congr (congrArg (fun p q => [p, q, 61, 61]) first) second
          exact same
      | cons b src =>
          cases src with
          | nil =>
              obtain ⟨first, second, third, -⟩ := digits a b 0
              have same := congr (congr (congrArg (fun p q r => [p, q, r, 61]) first) second) third
              exact same
          | cons c rest =>
              obtain ⟨first, second, third, last⟩ := digits a b c
              have more : (a :: b :: c :: rest).length > 2 := by
                rw [List.length_cons, List.length_cons, List.length_cons]
                omega
              show [_, _, if (a :: b :: c :: rest).length > 1 then _ else _,
                if (a :: b :: c :: rest).length > 2 then _ else _] ++ Base64.encode rest = _
              rw [if_pos more, if_pos (Nat.lt_of_succ_lt more), Base64.encode, ← first, ← second,
                ← third, ← last]
              rfl

/-! ## The loop -/

/-- How much of a destination a text and its terminator take. -/
def base64Length (n : Nat) : Nat := 4 * ((n + 2) / 3)

/-- The text alone: all of it, or nothing when it does not fit. -/
theorem base64Loop_eq (dstLen fuel : Nat) (src dst : Bytes) (enough : src.length ≤ fuel) :
    (dst.length + base64Length src.length < dstLen →
      base64Loop dstLen fuel src dst = some (dst ++ Base64.encode src)) ∧
    (src ≠ [] → ¬ dst.length + base64Length src.length < dstLen →
      base64Loop dstLen fuel src dst = none) := by
  unfold base64Length
  induction fuel generalizing src dst with
  | zero =>
      obtain rfl := List.length_eq_zero_iff.mp (Nat.le_zero.mp enough)
      refine ⟨fun _ => ?_, fun filled => absurd rfl filled⟩
      rw [Base64.encode, List.append_nil]
      rfl
  | succ fuel ih =>
      rw [base64Loop]
      by_cases empty : src = []
      · refine ⟨fun _ => ?_, fun filled => absurd empty filled⟩
        rw [if_pos empty, empty, Base64.encode, List.append_nil]
      have some := List.length_pos_iff.mpr empty
      have left : (src.drop 3).length = src.length - 3 := List.length_drop
      have grown : (dst ++ base64Group src).length = dst.length + 4 := List.length_append
      obtain ⟨done, failed⟩ := ih (src.drop 3) (dst ++ base64Group src) (by omega)
      rw [if_neg empty]
      by_cases full : dst.length + 4 ≥ dstLen
      · rw [if_pos full]
        exact ⟨fun room => by omega, fun _ _ => rfl⟩
      · rw [if_neg full]
        refine ⟨fun room => ?_, fun _ none => ?_⟩
        · rw [done (by omega), List.append_assoc, base64Group_encode src empty]
        · refine failed (fun last => ?_) (by omega)
          rw [last] at left
          simp only [List.length_nil] at left
          omega

/-- The text is handed on exactly where it and its terminator fit. -/
theorem base64EncodeSmall_eq (src : Bytes) {dstLen : Nat} (room : 1 ≤ dstLen) :
    base64EncodeSmall src dstLen =
      if base64Length src.length < dstLen then .ok (Base64.encode src) else .error (-eNoMem) := by
  obtain ⟨done, failed⟩ := base64Loop_eq dstLen src.length src [] (Nat.le_refl _)
  rw [List.length_nil, Nat.zero_add] at done failed
  unfold base64EncodeSmall
  by_cases fits : base64Length src.length < dstLen
  · rw [if_pos fits, done fits]
    rfl
  · have filled : src ≠ [] := by
      rintro rfl
      exact fits room
    rw [if_neg fits, failed filled fits]

/-- A round stores its characters in a row. -/
theorem putGroup_wrote (src : Bytes) (out : Nat) (dst : Cells) :
    Cells.Wrote out (base64Group src) dst (putGroup src out dst) := by
  unfold base64Group putGroup
  exact ((Cells.Wrote.store out _ dst).append (.store (out + 1) _ _)).append
    ((Cells.Wrote.store (out + 2) _ _).append (.store (out + 3) _ _))

/-- As long as no sum of sizes wraps around, the loop stores the text from `out` on, or stops
before the end of the destination. -/
theorem base64StoreLoop_run (dstLen fuel : Nat) (src : Bytes) (out : Nat) (dst : Cells)
    (enough : src.length ≤ fuel) (small : out + base64Length src.length < 2 ^ 32)
    (inside : out < dstLen) :
    (out + base64Length src.length < dstLen →
      ∃ dst', base64StoreLoop dstLen fuel src out dst = .ok (out + base64Length src.length, dst') ∧
        Cells.Wrote out (Base64.encode src) dst dst') ∧
    (¬ out + base64Length src.length < dstLen →
      ∃ text dst', base64StoreLoop dstLen fuel src out dst = .error dst' ∧
        Cells.Wrote out text dst dst' ∧ out + text.length < dstLen) := by
  unfold base64Length at small ⊢
  induction fuel generalizing src out dst with
  | zero =>
      obtain rfl := List.length_eq_zero_iff.mp (Nat.le_zero.mp enough)
      exact ⟨fun _ => ⟨dst, rfl, .nil out dst⟩, fun full => absurd inside full⟩
  | succ fuel ih =>
      rw [base64StoreLoop]
      by_cases empty : src = []
      · rw [if_pos empty, empty]
        exact ⟨fun _ => ⟨dst, rfl, .nil out dst⟩, fun full => absurd inside full⟩
      have some := List.length_pos_iff.mpr empty
      have left : (src.drop 3).length = src.length - 3 := List.length_drop
      have sum : (out + 4) % 2 ^ 32 = out + 4 := Nat.mod_eq_of_lt (by omega)
      have wrote := putGroup_wrote src out dst
      have four : (base64Group src).length = 4 := rfl
      rw [if_neg empty, sum]
      by_cases full : out + 4 ≥ dstLen
      · rw [if_pos full]
        refine ⟨fun room => by omega, fun _ => ⟨[], dst, rfl, .nil out dst, ?_⟩⟩
        rw [List.length_nil]
        omega
      · rw [if_neg full]
        have next : out + 4 + 4 * (((src.drop 3).length + 2) / 3) =
            out + 4 * ((src.length + 2) / 3) := by omega
        obtain ⟨done, failed⟩ := ih (src.drop 3) (out + 4) (putGroup src out dst) (by omega)
          (by omega) (by omega)
        rw [next] at done failed
        refine ⟨fun room => ?_, fun none => ?_⟩
        · obtain ⟨dst', run, rest⟩ := done room
          refine ⟨dst', run, ?_⟩
          rw [← base64Group_encode src empty]
          exact wrote.append rest
        · obtain ⟨text, dst', run, rest, short⟩ := failed none
          refine ⟨base64Group src ++ text, dst', run, wrote.append rest, ?_⟩
          rw [List.length_append, four]
          omega

/-! ## The function -/

/-- The encoding is exact and stays inside its destination: it succeeds exactly where the text and
its terminator fit, and what is then stored is the standard's text, which decodes to the source. -/
theorem base64_encode_small_exact (src : Bytes) (dst : Cells) (dstLen : Nat)
    (small : src.length ≤ 2 ^ 28) (room : 1 ≤ dstLen) :
    ((base64EncodeInto src dst dstLen).1 = 0 ↔ base64Length src.length + 1 ≤ dstLen) ∧
    ((base64EncodeInto src dst dstLen).1 = 0 →
      (base64EncodeInto src dst dstLen).2.slice 0 (base64Length src.length + 1) =
          Base64.encode src ++ [0] ∧
        Base64.decode ((base64EncodeInto src dst dstLen).2.slice 0 (base64Length src.length)) =
          some src) ∧
    ((base64EncodeInto src dst dstLen).1 ≠ 0 → (base64EncodeInto src dst dstLen).1 = -eNoMem) ∧
    ∀ i ∈ (base64EncodeInto src dst dstLen).2.stores, i ∈ dst.stores ∨ i < dstLen := by
  have never : ¬ -eNoMem = 0 := by decide
  have length : (Base64.encode src).length = base64Length src.length := Base64.encode_length src
  have bounded : 0 + base64Length src.length < 2 ^ 32 := by
    unfold base64Length
    omega
  obtain ⟨done, failed⟩ :=
    base64StoreLoop_run dstLen src.length src 0 dst (Nat.le_refl _) bounded room
  rw [Nat.zero_add] at done failed
  unfold base64EncodeInto
  by_cases fits : base64Length src.length < dstLen
  · obtain ⟨dst', run, text⟩ := done fits
    rw [run]
    -- the terminator goes behind the text
    have whole : Cells.Wrote 0 (Base64.encode src ++ [0]) dst
        (dst'.store (base64Length src.length) 0) := by
      refine text.append ?_
      rw [Nat.zero_add, length]
      exact .store _ _ _
    have stored := whole.slice
    rw [List.length_append, length, List.length_singleton] at stored
    refine ⟨⟨fun _ => fits, fun _ => rfl⟩, fun _ => ⟨stored, ?_⟩, fun bad => absurd rfl bad,
      fun i touched => ?_⟩
    · rw [Cells.slice_add] at stored
      have front := (List.append_inj stored (by rw [Cells.slice_length, length])).1
      show Base64.decode ((dst'.store _ 0).slice 0 _) = _
      rw [front]
      exact Base64.decode_encode src
    · rcases (whole.stores i).mp touched with before | ⟨-, inside⟩
      · exact .inl before
      · rw [List.length_append, length, List.length_singleton] at inside
        exact .inr (by omega)
  · obtain ⟨text, dst', run, wrote, short⟩ := failed fits
    rw [run]
    refine ⟨⟨fun success => absurd success never, fun fits' => absurd fits' fits⟩,
      fun success => absurd success never, fun _ => rfl, fun i touched => ?_⟩
    rcases (wrote.stores i).mp touched with before | ⟨-, inside⟩
    · exact .inl before
    · exact .inr (by omega)

/-- The digest of a handshake in a destination that is just large enough. -/
theorem base64_encode_small_exact_digest :
    (base64EncodeInto (List.replicate 20 0xff) { byte := fun _ => 0 } 29).1 = 0 ∧
      (base64EncodeInto (List.replicate 20 0xff) { byte := fun _ => 0 } 29).2.slice 0 29 =
        Base64.encode (List.replicate 20 0xff) ++ [0] := by
  have exact := base64_encode_small_exact (List.replicate 20 0xff) { byte := fun _ => 0 } 29
    (by decide) (by decide)
  have success := exact.1.mpr (by decide)
  exact ⟨success, (exact.2.1 success).1⟩

/-- The text that is handed on is what the destination then holds. -/
theorem base64EncodeSmall_into (src : Bytes) (dst : Cells) {dstLen : Nat}
    (small : src.length ≤ 2 ^ 28) (room : 1 ≤ dstLen) :
    base64EncodeSmall src dstLen =
      if (base64EncodeInto src dst dstLen).1 = 0 then
        .ok ((base64EncodeInto src dst dstLen).2.slice 0 (base64Length src.length))
      else .error (base64EncodeInto src dst dstLen).1 := by
  have never : ¬ -eNoMem = 0 := by decide
  have length : (Base64.encode src).length = base64Length src.length := Base64.encode_length src
  obtain ⟨done, failed⟩ := base64StoreLoop_run dstLen src.length src 0 dst (Nat.le_refl _)
    (by unfold base64Length; omega) room
  rw [Nat.zero_add] at done failed
  rw [base64EncodeSmall_eq src room]
  unfold base64EncodeInto
  by_cases fits : base64Length src.length < dstLen
  · obtain ⟨dst', run, text⟩ := done fits
    rw [run, if_pos fits]
    have front := text.slice
    rw [length] at front
    -- the terminator is stored behind the text
    have kept : (dst'.store (base64Length src.length) 0).slice 0 (base64Length src.length) =
        Base64.encode src :=
      (Cells.slice_congr fun k _ inside => if_neg (by omega)).trans front
    exact (congrArg Except.ok kept.symm).trans (if_pos rfl).symm
  · obtain ⟨text, dst', run, -⟩ := failed fits
    rw [run, if_neg fits]
    exact (if_neg never).symm

end PicoCan.Http
