import PicoCan.Calls.Text

/-!
# Stores into an array

An array of bytes that a program fills by storing at indices of its own reckoning: nothing
keeps it from storing behind the end, so the cells have no end, and every index stored at is
recorded. `Wrote` is what a sequence of stores amounts to: some bytes in a row, nothing
changed around them, and no other index touched. Such sequences follow one another, and a
store into what has been written already only replaces a byte.
-/

namespace Calls

/-- The cells of an array, and the indices of the stores made so far. -/
structure Cells where
  byte : Nat → UInt8
  stores : List Nat := []

namespace Cells

def store (i : Nat) (b : UInt8) (m : Cells) : Cells where
  byte := fun k => if k = i then b else m.byte k
  stores := i :: m.stores

/-- The `n` bytes from index `i` on. -/
def slice (m : Cells) (i : Nat) : (n : Nat) → Bytes
  | 0 => []
  | n + 1 => m.byte i :: m.slice (i + 1) n

theorem slice_length (m : Cells) (i n : Nat) : (m.slice i n).length = n := by
  induction n generalizing i with
  | zero => rfl
  | succ n ih => exact congrArg (· + 1) (ih (i + 1))

theorem slice_add (m : Cells) (i n k : Nat) :
    m.slice i (n + k) = m.slice i n ++ m.slice (i + n) k := by
  induction n generalizing i with
  | zero =>
      rw [Nat.zero_add]
      rfl
  | succ n ih =>
      rw [Nat.add_right_comm, show i + (n + 1) = i + 1 + n by omega]
      exact congrArg (m.byte i :: ·) (ih (i + 1))

/-- A slice is what its cells are. -/
theorem slice_congr {m m' : Cells} {i n : Nat}
    (same : ∀ k, i ≤ k → k < i + n → m'.byte k = m.byte k) : m'.slice i n = m.slice i n := by
  induction n generalizing i with
  | zero => rfl
  | succ n ih =>
      rw [slice, slice, same i (Nat.le_refl i) (by omega),
        ih fun k low high => same k (by omega) (by omega)]

/-- The bytes have been stored in a row from an index on, and nowhere else has been stored. -/
structure Wrote (i : Nat) (bytes : Bytes) (m m' : Cells) : Prop where
  slice : m'.slice i bytes.length = bytes
  same : ∀ k, (k < i ∨ i + bytes.length ≤ k) → m'.byte k = m.byte k
  stores : ∀ k, k ∈ m'.stores ↔ k ∈ m.stores ∨ (i ≤ k ∧ k < i + bytes.length)

theorem Wrote.nil (i : Nat) (m : Cells) : Wrote i [] m m :=
  ⟨rfl, fun _ _ => rfl, fun k => ⟨.inl, fun touched => touched.elim id fun ⟨low, high⟩ => by
    rw [List.length_nil] at high
    omega⟩⟩

theorem Wrote.store (i : Nat) (b : UInt8) (m : Cells) : Wrote i [b] m (m.store i b) := by
  refine ⟨?_, fun k outside => ?_, fun k => ?_⟩
  · show [if i = i then b else m.byte i] = [b]
    rw [if_pos rfl]
  · rw [List.length_singleton] at outside
    exact if_neg (by omega)
  · rw [List.length_singleton, Cells.store, List.mem_cons, Or.comm]
    exact or_congr_right ⟨fun here => by omega, fun ⟨low, high⟩ => by omega⟩

/-- One sequence of stores follows another. -/
theorem Wrote.append {i : Nat} {front rest : Bytes} {m m' m'' : Cells}
    (first : Wrote i front m m') (next : Wrote (i + front.length) rest m' m'') :
    Wrote i (front ++ rest) m m'' := by
  refine ⟨?_, fun k outside => ?_, fun k => ?_⟩
  · -- the second sequence begins where the first ends, and leaves it alone
    have kept : m''.slice i front.length = m'.slice i front.length :=
      slice_congr fun k low high => next.same k (.inl high)
    rw [List.length_append, slice_add, kept, first.slice, next.slice]
  · rw [List.length_append] at outside
    rw [next.same k (by omega), first.same k (by omega)]
  · rw [next.stores, first.stores, List.length_append]
    constructor
    · rintro ((before | here) | here)
      · exact .inl before
      · exact .inr (by omega)
      · exact .inr (by omega)
    · rintro (before | here)
      · exact .inl (.inl before)
      · by_cases front : k < i + front.length
        · exact .inl (.inr ⟨here.1, front⟩)
        · exact .inr (by omega)

/-- A byte that has been stored already is replaced. -/
theorem Wrote.replace {i : Nat} {front rest : Bytes} {b : UInt8} {m m' : Cells}
    (wrote : Wrote i (front ++ b :: rest) m m') (b' : UInt8) :
    Wrote i (front ++ b' :: rest) m (m'.store (i + front.length) b') := by
  have length : (front ++ b' :: rest).length = (front ++ b :: rest).length := by
    rw [List.length_append, List.length_append, List.length_cons, List.length_cons]
  have inside : front.length < (front ++ b :: rest).length := by
    rw [List.length_append, List.length_cons]
    omega
  refine ⟨?_, fun k outside => ?_, fun k => ?_⟩
  · have whole := wrote.slice
    rw [List.length_append, List.length_cons, slice_add, Cells.slice] at whole
    obtain ⟨before, behind⟩ := List.append_inj whole (slice_length _ _ _)
    have after := (List.cons.inj behind).2
    have kept : (m'.store (i + front.length) b').slice i front.length = front :=
      (slice_congr fun k low high => if_neg (by omega)).trans before
    have kept' : (m'.store (i + front.length) b').slice (i + front.length + 1) rest.length = rest :=
      (slice_congr fun k low high => if_neg (by omega)).trans after
    rw [List.length_append, List.length_cons, slice_add, Cells.slice, kept, kept']
    exact congrArg (fun b => front ++ b :: rest) (if_pos rfl)
  · rw [length] at outside
    exact (if_neg (by omega)).trans (wrote.same k outside)
  · rw [length, Cells.store, List.mem_cons, wrote.stores]
    constructor
    · rintro (rfl | touched)
      · exact .inr (by omega)
      · exact touched
    · exact .inr

end Cells

end Calls
