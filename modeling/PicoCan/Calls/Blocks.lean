/-!
# Compressing a stream block by block

An iterated hash takes its message in blocks of one size and folds each into a state. What a
stream has left behind at any point is the state after its whole blocks and the entries that
do not fill one yet; more of the stream goes on from there, however it is cut.
-/

namespace Calls

section
variable {σ β : Type} (size : Nat) (compress : σ → List β → σ)

/-- The state after every whole block of the stream, in order, and what is left over. -/
def absorb (s : σ) (stream : List β) : σ × List β :=
  if 0 < size ∧ size ≤ stream.length then
    absorb (compress s (stream.take size)) (stream.drop size)
  else (s, stream)
termination_by stream.length
decreasing_by rw [List.length_drop]; omega

variable {size} {compress}

theorem absorb_short {s : σ} {stream : List β} (short : stream.length < size) :
    absorb size compress s stream = (s, stream) := by
  rw [absorb, if_neg (by omega)]

theorem absorb_block {stream : List β} (s : σ) (pos : 0 < size) (full : size ≤ stream.length) :
    absorb size compress s stream =
      absorb size compress (compress s (stream.take size)) (stream.drop size) := by
  rw [absorb, if_pos ⟨pos, full⟩]

/-- A stream that begins with a block. -/
theorem absorb_block_append {block : List β} (s : σ) (pos : 0 < size) (full : block.length = size)
    (rest : List β) :
    absorb size compress s (block ++ rest) = absorb size compress (compress s block) rest := by
  rw [absorb_block s pos (by rw [List.length_append]; omega), List.take_left' full,
    List.drop_left' full]

/-- More of the stream goes on from where the first part left off. -/
theorem absorb_append (pos : 0 < size) (s : σ) (front rest : List β) :
    absorb size compress s (front ++ rest) =
      absorb size compress (absorb size compress s front).1
        ((absorb size compress s front).2 ++ rest) := by
  induction h : front.length using Nat.strongRecOn generalizing s front with
  | ind n ih =>
      by_cases full : size ≤ front.length
      · rw [absorb_block s pos (by rw [List.length_append]; omega),
          List.take_append_of_le_length full, List.drop_append_of_le_length full,
          ih (front.drop size).length (by rw [List.length_drop]; omega) _ _ rfl,
          absorb_block s pos full]
      · rw [absorb_short (show front.length < size by omega)]

end

end Calls
