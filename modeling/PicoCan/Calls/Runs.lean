import PicoCan.Calls.Program

/-!
# Runs of labelled machines

`Machine` is a transition system whose labels carry every choice of the
environment, so that a step is a function. `Reach M ok` collects the states
reached by steps that all meet `ok`; with `anyStep` it is plain reachability.

The second half ties machines whose threads run `Prog`s to the weakest
preconditions of `Calls.Program`: the part of the state a thread can see
(`view`) changes as its spec says when the thread itself makes a call
(`Describes`) and not at all when somebody else does (`Leaves`).
-/

namespace Calls

/-- A machine: where it may start, and its labelled steps. -/
structure Machine (S E : Type) where
  Start : S → Prop
  step : S → E → Option S

namespace Machine

variable {S E : Type} {M : Machine S E} {ok : S → E → Prop}

/-- The states reached from a start by steps that meet `ok`. -/
inductive Reach (M : Machine S E) (ok : S → E → Prop) : S → Prop
  | start {s} : M.Start s → Reach M ok s
  | next {s e t} : Reach M ok s → ok s e → M.step s e = some t → Reach M ok t

/-- No condition on the steps. -/
def anyStep (_ : S) (_ : E) : Prop := True

/-- What holds at the start and is kept by every admitted step holds throughout. -/
theorem Reach.invariant {I : S → Prop} (start : ∀ s, M.Start s → I s)
    (next : ∀ s e t, I s → ok s e → M.step s e = some t → I t) {s : S}
    (reach : M.Reach ok s) : I s := by
  induction reach with
  | start h => exact start _ h
  | next _ hok hstep ih => exact next _ _ _ ih hok hstep

/-- The same with facts that are already known of every reached state. -/
theorem Reach.invariant_of {J I : S → Prop} (known : ∀ s, M.Reach ok s → J s)
    (start : ∀ s, M.Start s → I s)
    (next : ∀ s e t, J s → I s → ok s e → M.step s e = some t → I t) {s : S}
    (reach : M.Reach ok s) : I s := by
  induction reach with
  | start h => exact start _ h
  | next before hok hstep ih => exact next _ _ _ (known _ before) ih hok hstep

/-- The state after a list of labels, if every one of them is enabled in turn. -/
def runs (M : Machine S E) : S → List E → Option S
  | s, [] => some s
  | s, e :: rest => (M.step s e).bind fun t => M.runs t rest

theorem runs_append {s t u : S} {labels more : List E} (first : M.runs s labels = some t)
    (rest : M.runs t more = some u) : M.runs s (labels ++ more) = some u := by
  induction labels generalizing s with
  | nil => exact Option.some.inj first ▸ rest
  | cons e labels ih =>
      obtain ⟨s', hstep, hrest⟩ := Option.bind_eq_some_iff.mp first
      show (M.step s e).bind _ = some u
      rw [hstep]
      exact ih hrest

/-- Every label of the list is enabled in turn and meets `ok`. -/
def Along (M : Machine S E) (ok : S → E → Prop) : S → List E → Prop
  | _, [] => True
  | s, e :: rest =>
      ok s e ∧ match M.step s e with
        | some t => M.Along ok t rest
        | none => False

instance decidableAlong [∀ s e, Decidable (ok s e)] :
    (s : S) → (labels : List E) → Decidable (M.Along ok s labels)
  | _, [] => .isTrue trivial
  | s, e :: rest =>
      have : Decidable (match M.step s e with
          | some t => M.Along ok t rest
          | none => False) :=
        match M.step s e with
        | some t => decidableAlong t rest
        | none => .isFalse id
      inferInstanceAs (Decidable (_ ∧ _))

/-- Executing admitted labels from a reached state reaches the final state. -/
theorem Reach.along {s : S} (reach : M.Reach ok s) {labels : List E}
    (along : M.Along ok s labels) : ∃ t, M.runs s labels = some t ∧ M.Reach ok t := by
  induction labels generalizing s with
  | nil => exact ⟨s, rfl, reach⟩
  | cons e rest ih =>
      obtain ⟨hok, hrest⟩ := along
      cases hstep : M.step s e with
      | none => rw [hstep] at hrest; exact hrest.elim
      | some t =>
          rw [hstep] at hrest
          obtain ⟨u, hruns, hreach⟩ := ih (.next reach hok hstep) hrest
          exact ⟨u, by rw [runs, hstep]; exact hruns, hreach⟩

theorem Reach.runs {s t : S} (reach : M.Reach anyStep s) {labels : List E}
    (run : M.runs s labels = some t) : M.Reach anyStep t := by
  induction labels generalizing s with
  | nil => exact Option.some.inj run ▸ reach
  | cons e rest ih =>
      obtain ⟨u, hstep, hrest⟩ := Option.bind_eq_some_iff.mp run
      exact ih (.next reach trivial hstep) hrest

end Machine

/-! ## The part of the state that belongs to one thread -/

section Threads

variable {C : Type} {R : C → Type} {O S V α : Type}

/-- Calls of the thread itself move its view as `Φ` says. -/
def Describes (exec : (c : C) → O → S → Option (R c × S))
    (ok : (c : C) → O → S → Prop) (view : S → V) (Φ : Spec R V) : Prop :=
  ∀ c o s r s' post, ok c o s → exec c o s = some (r, s') →
    Φ c post (view s) → post r (view s')

/-- The calls of another thread, those that satisfy `P`, do not move the view. -/
def Leaves (exec : (c : C) → O → S → Option (R c × S)) (P : C → Prop) (view : S → V) : Prop :=
  ∀ c o s r s', P c → exec c o s = some (r, s') → view s' = view s

/-- After one call of the thread, the weakest precondition of the rest holds. -/
theorem Describes.wp_step {exec : (c : C) → O → S → Option (R c × S)}
    {ok : (c : C) → O → S → Prop} {view : S → V} {Φ : Spec R V}
    (describes : Describes exec ok view Φ) {c : C} {k : R c → Prog R α} {o : O} {s s' : S}
    {r : R c} {Q : α → V → Prop} (admitted : ok c o s) (step : exec c o s = some (r, s'))
    (before : (Prog.call c k).wp Φ Q (view s)) : (k r).wp Φ Q (view s') :=
  describes c o s r s' _ admitted step before

/-- A call of another thread keeps the weakest precondition. -/
theorem Leaves.wp_step {exec : (c : C) → O → S → Option (R c × S)} {P : C → Prop}
    {view : S → V} (leaves : Leaves exec P view) {Φ : Spec R V} {p : Prog R α}
    {Q : α → V → Prop} {c : C} {o : O} {s s' : S} {r : R c} (admitted : P c)
    (step : exec c o s = some (r, s')) (before : p.wp Φ Q (view s)) :
    p.wp Φ Q (view s') := by
  rw [leaves c o s r s' admitted step]
  exact before

end Threads

end Calls
