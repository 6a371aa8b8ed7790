import PicoCan.Calls.Simulation

/-!
# A relay between a client and a medium

What a gateway with two bounded buffers is for, as a machine of atomic steps. The client
submits items, fetches what has arrived, and switches the stream of arrivals on and off;
the medium takes submitted items one by one and brings new ones. A submission may be
refused when `outCap` items are waiting and is never taken when more than that are; an
arrival is kept exactly while the stream is on and fewer than `inCap` wait.

`done` records the client's operations with their answers, `kept` the arrivals kept since
the stream was last switched. What a step shows is the arrival it is, so the trace of a run is
everything the medium has brought.
-/

namespace Calls

/-- A client's operation and what it was answered. -/
inductive RelayOp (α : Type)
  | submit (a : α) (taken : Bool)
  | fetch (answer : Option α)
  | stream (enabled : Bool)

structure Relay (α : Type) where
  pending : List α := []
  sent : List α := []
  inbox : List α := []
  streaming : Bool := false
  done : List (RelayOp α) := []
  kept : List α := []

namespace Relay

variable {α : Type}

inductive Label (α : Type)
  | submit (a : α) (taken : Bool)
  | fetch
  | stream (enabled : Bool)
  | transmit
  | arrive (a : α) (kept : Bool)

def Label.arrivals : Label α → List α
  | .arrive a _ => [a]
  | _ => []

def step (outCap inCap : Nat) (r : Relay α) : Label α → Option (Relay α)
  | .submit a true =>
      if r.pending.length ≤ outCap then
        some { r with pending := r.pending ++ [a], done := r.done ++ [.submit a true] }
      else none
  | .submit a false =>
      if outCap ≤ r.pending.length then some { r with done := r.done ++ [.submit a false] }
      else none
  | .fetch => some { r with inbox := r.inbox.tail, done := r.done ++ [.fetch r.inbox.head?] }
  | .stream enabled => some { r with
      inbox := [], streaming := enabled, kept := [], done := r.done ++ [.stream enabled] }
  | .transmit =>
      match r.pending with
      | [] => none
      | a :: rest => some { r with pending := rest, sent := r.sent ++ [a] }
  | .arrive a true =>
      if r.streaming ∧ r.inbox.length < inCap then
        some { r with inbox := r.inbox ++ [a], kept := r.kept ++ [a] }
      else none
  | .arrive _ false => if r.streaming = false ∨ inCap ≤ r.inbox.length then some r else none

/-- The relay, started empty and with the stream off. -/
def machine (α : Type) (outCap inCap : Nat) : Machine (Relay α) (Label α) where
  Start r := r = {}
  step := step outCap inCap

/-- What the medium brings in a step. -/
def arrivals (_ : Relay α) (l : Label α) : List α := l.arrivals

/-! ## What the operations add up to -/

/-- The items whose submission was taken. -/
def taken (ops : List (RelayOp α)) : List α :=
  ops.flatMap fun op =>
    match op with
    | .submit a true => [a]
    | _ => []

/-- The items fetched since the stream was last switched. -/
def fetched (ops : List (RelayOp α)) : List α :=
  ops.foldl (fun items op =>
    match op with
    | .stream _ => []
    | .fetch (some a) => items ++ [a]
    | _ => items) []

section Ops

variable (ops ops' : List (RelayOp α))

@[simp] theorem taken_append : taken (ops ++ ops') = taken ops ++ taken ops' :=
  List.flatMap_append

@[simp] theorem taken_submit (a : α) : taken [.submit a true] = [a] := rfl

@[simp] theorem taken_refused (a : α) : taken [.submit a false] = [] := rfl

@[simp] theorem taken_fetch (answer : Option α) : taken [.fetch answer] = [] := rfl

@[simp] theorem taken_stream (enabled : Bool) : taken (α := α) [.stream enabled] = [] := rfl

@[simp] theorem fetched_submit (a : α) (took : Bool) :
    fetched (ops ++ [.submit a took]) = fetched ops := by
  simp [fetched]

@[simp] theorem fetched_none : fetched (ops ++ [.fetch none]) = fetched ops := by
  simp [fetched]

@[simp] theorem fetched_some (a : α) : fetched (ops ++ [.fetch (some a)]) = fetched ops ++ [a] := by
  simp [fetched]

@[simp] theorem fetched_stream (enabled : Bool) : fetched (ops ++ [.stream enabled]) = [] := by
  simp [fetched]

end Ops

/-- First in, first out, both ways, within the bounds; and nothing waits behind a stream
that is off. -/
structure Exact (outCap inCap : Nat) (r : Relay α) : Prop where
  outbound : r.sent ++ r.pending = taken r.done
  inbound : fetched r.done ++ r.inbox = r.kept
  pending_le : r.pending.length ≤ outCap + 1
  inbox_le : r.inbox.length ≤ inCap
  quiet : r.streaming = false → r.inbox = []

theorem Exact.step {outCap inCap : Nat} {r r' : Relay α} {l : Label α}
    (holds : Exact outCap inCap r) (hstep : r.step outCap inCap l = some r') :
    Exact outCap inCap r' := by
  obtain ⟨outbound, inbound, pending_le, inbox_le, quiet⟩ := holds
  cases l with
  | submit a took =>
      cases took with
      | true =>
          simp only [Relay.step, Option.ite_none_right_eq_some, Option.some.injEq] at hstep
          obtain ⟨room, rfl⟩ := hstep
          refine ⟨?_, ?_, ?_, inbox_le, quiet⟩
          · simp [← outbound]
          · simpa using inbound
          · simpa using room
      | false =>
          simp only [Relay.step, Option.ite_none_right_eq_some, Option.some.injEq] at hstep
          obtain ⟨-, rfl⟩ := hstep
          exact ⟨by simpa using outbound, by simpa using inbound, pending_le, inbox_le, quiet⟩
  | fetch =>
      cases hstep
      refine ⟨by simpa using outbound, ?_, pending_le, ?_, fun off => ?_⟩
      · cases waiting : r.inbox with
        | nil => simpa [waiting] using inbound
        | cons a rest => simpa [waiting] using inbound
      · simp only [List.length_tail]
        omega
      · simp [quiet off]
  | stream enabled =>
      cases hstep
      exact ⟨by simpa using outbound, by simp, pending_le, Nat.zero_le _, fun _ => rfl⟩
  | transmit =>
      simp only [Relay.step] at hstep
      split at hstep
      · cases hstep
      · next a rest waiting =>
          cases hstep
          rw [waiting] at outbound pending_le
          exact ⟨by simpa using outbound, inbound, Nat.le_of_succ_le pending_le, inbox_le, quiet⟩
  | arrive a keep =>
      cases keep with
      | true =>
          simp only [Relay.step, Option.ite_none_right_eq_some, Option.some.injEq] at hstep
          obtain ⟨⟨on, room⟩, rfl⟩ := hstep
          refine ⟨outbound, ?_, pending_le, ?_, fun off => ?_⟩
          · show fetched r.done ++ (r.inbox ++ [a]) = r.kept ++ [a]
            rw [← List.append_assoc, inbound]
          · rw [List.length_append]
            exact room
          · exact absurd (on.symm.trans off) nofun
      | false =>
          simp only [Relay.step, Option.ite_none_right_eq_some, Option.some.injEq] at hstep
          obtain ⟨-, rfl⟩ := hstep
          exact ⟨outbound, inbound, pending_le, inbox_le, quiet⟩

theorem exact_reach {outCap inCap : Nat} {r : Relay α}
    (reach : (machine α outCap inCap).Reach Machine.anyStep r) : Exact outCap inCap r := by
  refine reach.invariant (I := Exact outCap inCap) ?_ fun _ _ _ holds _ hstep => holds.step hstep
  rintro _ rfl
  exact ⟨rfl, rfl, Nat.zero_le _, Nat.zero_le _, fun _ => rfl⟩

/-- What is kept has arrived, in that order. -/
theorem kept_sublist {outCap inCap : Nat} {r : Relay α} {trace : List α}
    {ok : Relay α → Label α → Prop}
    (run : (machine α outCap inCap).Trace ok arrivals {} trace r) : r.kept.Sublist trace := by
  induction run with
  | refl => exact .refl []
  | next run admitted hstep ih =>
      rename_i r r' l trace
      replace hstep : r.step outCap inCap l = some r' := hstep
      have unseen : r'.kept = r.kept → r'.kept.Sublist (trace ++ l.arrivals) := fun same =>
        same ▸ ih.trans (List.sublist_append_left trace l.arrivals)
      cases l with
      | submit a took =>
          cases took <;> simp only [Relay.step, Option.ite_none_right_eq_some,
            Option.some.injEq] at hstep <;> exact unseen (hstep.2 ▸ rfl)
      | fetch => cases hstep; exact unseen rfl
      | stream enabled => cases hstep; exact List.nil_sublist _
      | transmit =>
          simp only [Relay.step] at hstep
          split at hstep
          · cases hstep
          · cases hstep; exact unseen rfl
      | arrive a keep =>
          cases keep <;> simp only [Relay.step, Option.ite_none_right_eq_some,
            Option.some.injEq] at hstep
          case false => exact unseen (hstep.2 ▸ rfl)
          case true => exact hstep.2 ▸ ih.append (.refl [a])

end Relay

end Calls
