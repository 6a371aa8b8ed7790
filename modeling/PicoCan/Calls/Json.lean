import PicoCan.Calls.Text

/-!
# Flat JSON objects

The objects a firmware prints with `snprintk` and reads back through a table of field
descriptors: strings without escapes, numbers, booleans and arrays of numbers, without
blanks. `Json.objectText` is the text of such an object.
-/

namespace Calls

inductive Json
  | string (text : Bytes)
  | number (n : Int)
  | bool (b : Bool)
  | numbers (ns : List Int)

namespace Json

/-- The members of an object, in the order of its text. -/
abbrev Object : Type := List (String × Json)

/-- Pieces with commas between them. -/
def commaList : List Bytes → Bytes
  | [] => []
  | first :: rest => first ++ rest.flatMap fun piece => lit "," ++ piece

def text : Json → Bytes
  | .string s => lit "\"" ++ s ++ lit "\""
  | .number n => decInt n
  | .bool b => if b then lit "true" else lit "false"
  | .numbers ns => lit "[" ++ commaList (ns.map decInt) ++ lit "]"

def memberText (member : String × Json) : Bytes :=
  lit "\"" ++ lit member.1 ++ lit "\":" ++ member.2.text

def objectText (object : Object) : Bytes :=
  lit "\x7b" ++ commaList (object.map memberText) ++ lit "\x7d"

/-! ## Descriptors -/

/-- An `int32_t` described as a number: zero when the member is missing. -/
def int32Field : Option Json → Option Int32
  | none => some 0
  | some (.number n) => if -2 ^ 31 ≤ n ∧ n < 2 ^ 31 then some (Int32.ofInt n) else none
  | some _ => none

/-- A `bool` described as a truth value. -/
def boolField : Option Json → Option Bool
  | none => some false
  | some (.bool b) => some b
  | some _ => none

/-- A `char *` described as a string. -/
def stringField : Option Json → Option (Option Bytes)
  | none => some none
  | some (.string s) => some (some s)
  | some _ => none

/-- An array of `int32_t` described as an array of numbers, and its length. -/
def int32ArrayField : Option Json → Option (List Int32)
  | none => some []
  | some (.numbers ns) => ns.mapM fun n => int32Field (some (.number n))
  | some _ => none

theorem int32Field_nat {n : Nat} (small : n < 2 ^ 31) :
    int32Field (some (.number n)) = some (Int32.ofNat n) := by
  have range : (-2 ^ 31 : Int) ≤ (n : Int) ∧ (n : Int) < 2 ^ 31 := by omega
  rw [int32Field, if_pos range, Int32.ofInt_eq_ofNat]

theorem int32ArrayField_bytes (bytes : List UInt8) :
    int32ArrayField (some (.numbers (bytes.map fun byte => (byte.toNat : Int)))) =
      some (bytes.map fun byte => Int32.ofNat byte.toNat) := by
  rw [int32ArrayField]
  induction bytes with
  | nil => rfl
  | cons byte rest ih =>
      have small : byte.toNat < 2 ^ 31 := Nat.lt_trans byte.toNat_lt (by decide)
      simp only [List.map_cons, List.mapM_cons, ih, int32Field_nat small]
      rfl

end Json

theorem decInt_nat (n : Nat) : decInt n = dec n := by
  rw [decInt, if_neg (by omega), Int.natAbs_natCast]

theorem lit_append (s t : String) : lit s ++ lit t = lit (s ++ t) := by
  simp [lit]

theorem lit_append_append (s t : String) (rest : Bytes) :
    lit s ++ (lit t ++ rest) = lit (s ++ t) ++ rest := by
  rw [← List.append_assoc, lit_append]

end Calls
