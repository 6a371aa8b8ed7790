/-!
# Bounded queues

A queue that never holds more than `cap` items: the bound is part of the type,
so that an over-full queue cannot be built. `put` refuses exactly when the
queue is full, `get` takes the oldest item, `purge` empties it.
-/

namespace Calls

/-- A first-in first-out queue of at most `cap` items. -/
structure Fifo (α : Type) (cap : Nat) where
  items : List α
  bound : items.length ≤ cap

namespace Fifo

variable {α : Type} {cap : Nat}

@[ext] theorem ext {q q' : Fifo α cap} (same : q.items = q'.items) : q = q' := by
  cases q
  cases q'
  cases same
  rfl

def empty : Fifo α cap := ⟨[], Nat.zero_le _⟩

instance : Inhabited (Fifo α cap) := ⟨empty⟩

@[simp] theorem empty_items : (empty : Fifo α cap).items = [] := rfl

def numUsed (q : Fifo α cap) : Nat := q.items.length

def numFree (q : Fifo α cap) : Nat := cap - q.items.length

/-- Append an item; nothing when the queue is full. -/
def put (a : α) (q : Fifo α cap) : Option (Fifo α cap) :=
  if room : q.items.length < cap then
    some ⟨q.items ++ [a], by rw [List.length_append]; exact room⟩
  else none

/-- Take the oldest item. -/
def get (q : Fifo α cap) : Option (α × Fifo α cap) :=
  match h : q.items with
  | [] => none
  | a :: rest => some (a, ⟨rest, by have := q.bound; rw [h] at this; exact Nat.le_of_succ_le this⟩)

theorem put_eq_none {a : α} {q : Fifo α cap} : q.put a = none ↔ q.items.length = cap := by
  have := q.bound
  unfold put
  split
  · simp; omega
  · simp; omega

theorem put_of_room {a : α} {q : Fifo α cap} (room : q.items.length < cap) :
    ∃ q', q.put a = some q' ∧ q'.items = q.items ++ [a] := by
  simp [put, room]

theorem put_items {a : α} {q q' : Fifo α cap} (h : q.put a = some q') :
    q'.items = q.items ++ [a] := by
  unfold put at h
  split at h
  · cases h; rfl
  · cases h

theorem get_eq_none {q : Fifo α cap} : q.get = none ↔ q.items = [] := by
  unfold get
  split <;> simp_all

theorem get_items {a : α} {q q' : Fifo α cap} (h : q.get = some (a, q')) :
    q.items = a :: q'.items := by
  unfold get at h
  split at h
  · cases h
  · next b rest heq =>
      simp only [Option.some.injEq, Prod.mk.injEq] at h
      obtain ⟨rfl, rfl⟩ := h
      exact heq

theorem get_of_cons {a : α} {rest : List α} {q : Fifo α cap} (h : q.items = a :: rest) :
    ∃ q', q.get = some (a, q') ∧ q'.items = rest := by
  cases hget : q.get with
  | none => rw [get_eq_none.mp hget] at h; cases h
  | some pair =>
      obtain ⟨b, q'⟩ := pair
      have := get_items hget
      rw [h] at this
      obtain ⟨rfl, rfl⟩ := List.cons.inj this
      exact ⟨q', rfl, rfl⟩

end Fifo

end Calls
