import Mathlib.Algebra.Group.Int.Defs
import Mathlib.Algebra.Group.Nat.Defs

/-!
# Bytes, decimal numerals and bounded printing

Texts are lists of bytes. `dec` and `decInt` print numbers the way `%u` and
`%d` do; their lengths are bounded by the number of digits. `printAt` is a
bounded print into a character buffer: it returns the length the text would
have had and stores as much of it as fits.
-/

namespace Calls

abbrev Bytes := List UInt8

/-- The bytes of an ASCII literal. -/
def lit (s : String) : Bytes := s.toList.map fun c => c.toNat.toUInt8

/-- A natural number in decimal. -/
def dec (n : Nat) : Bytes := (Nat.toDigits 10 n).map fun c => c.toNat.toUInt8

/-- An integer in decimal, with a minus sign when negative. -/
def decInt (i : Int) : Bytes :=
  if i < 0 then lit "-" ++ dec i.natAbs else dec i.natAbs

theorem dec_length_le {n k : Nat} (pos : 0 < k) (lt : n < 10 ^ k) : (dec n).length ≤ k := by
  rw [dec, List.length_map]
  exact (Nat.length_toDigits_le_iff (by decide) pos).mpr lt

theorem decInt_length_le {i : Int} {k : Nat} (pos : 0 < k) (lt : i.natAbs < 10 ^ k) :
    (decInt i).length ≤ k + 1 := by
  have digits := dec_length_le pos lt
  unfold decInt
  split
  · rw [List.length_append]
    have sign : (lit "-").length = 1 := by decide
    omega
  · omega

/-- Print `text` into a buffer at `offset` with room for `size` characters, the
terminator included: the untruncated length, and what the buffer then holds up
to its terminator. A size of zero stores nothing. -/
def printAt (buffer : Bytes) (offset size : Nat) (text : Bytes) : Int × Bytes :=
  (text.length, if size = 0 then buffer else buffer.take offset ++ text.take (size - 1))

theorem printAt_fits {buffer text : Bytes} {offset size : Nat} (fits : text.length < size) :
    printAt buffer offset size text = ((text.length : Int), buffer.take offset ++ text) := by
  have pos : size ≠ 0 := by omega
  simp [printAt, pos, List.take_of_length_le (show text.length ≤ size - 1 by omega)]

end Calls
