import PicoCan.Calls.Runs

/-!
# Forward simulation

`Simulates M N rel` says that `N` can follow every step of `M` by some steps of its
own, possibly none, so that the states stay related. What is reached in `M` is then
related to something reached in `N` (`Simulates.reach`), and simulations compose
(`Simulates.trans`). `Mirrors` asks in addition that the steps of `N` show what the step of
`M` shows, so that every run of `M` is matched by a run of `N` with the same trace
(`Mirrors.trace`).

The last part is about programs that call another level in whole procedures: between
two procedures such a program makes calls of its own only (`Composed`).
-/

namespace Calls

namespace Machine

variable {S E T F U G : Type} {M : Machine S E} {N : Machine T F} {K : Machine U G}

/-- The states reached from `s` by steps that meet `ok`. -/
inductive Steps (M : Machine S E) (ok : S → E → Prop) (s : S) : S → Prop
  | refl : Steps M ok s s
  | next {t u : S} {e : E} : Steps M ok s t → ok t e → M.step t e = some u → Steps M ok s u

section Steps

variable {ok : S → E → Prop} {s t u : S}

theorem Steps.one {e : E} (admitted : ok s e) (step : M.step s e = some t) : M.Steps ok s t :=
  .next .refl admitted step

theorem Steps.trans (first : M.Steps ok s t) (rest : M.Steps ok t u) : M.Steps ok s u := by
  induction rest with
  | refl => exact first
  | next _ admitted step ih => exact .next ih admitted step

theorem Reach.steps (reach : M.Reach ok s) (steps : M.Steps ok s t) : M.Reach ok t := by
  induction steps with
  | refl => exact reach
  | next _ admitted step ih => exact .next ih admitted step

end Steps

theorem Reach.mono {ok ok' : S → E → Prop} {s : S} (reach : M.Reach ok s)
    (weaker : ∀ s e, ok s e → ok' s e) : M.Reach ok' s := by
  induction reach with
  | start h => exact .start h
  | next _ admitted step ih => exact .next ih (weaker _ _ admitted) step

/-- `N` follows `M`: from every start, and at every admitted step from related reached
states. -/
structure Simulates (M : Machine S E) (okM : S → E → Prop) (N : Machine T F)
    (okN : T → F → Prop) (rel : S → T → Prop) : Prop where
  start : ∀ s, M.Start s → ∃ t, N.Start t ∧ rel s t
  step : ∀ s e s' t, M.Reach okM s → N.Reach okN t → rel s t → okM s e →
    M.step s e = some s' → ∃ t', N.Steps okN t t' ∧ rel s' t'

section Simulates

variable {okM : S → E → Prop} {okN : T → F → Prop} {okK : U → G → Prop}
  {rel : S → T → Prop} {rel' : T → U → Prop}

theorem Simulates.reach (sim : Simulates M okM N okN rel) {s : S} (reach : M.Reach okM s) :
    ∃ t, N.Reach okN t ∧ rel s t := by
  induction reach with
  | start h =>
      obtain ⟨t, started, related⟩ := sim.start _ h
      exact ⟨t, .start started, related⟩
  | next before admitted hstep ih =>
      obtain ⟨t, reached, related⟩ := ih
      obtain ⟨t', steps, related'⟩ := sim.step _ _ _ t before reached related admitted hstep
      exact ⟨t', reached.steps steps, related'⟩

/-- What holds of all that `N` reaches holds of something related. -/
theorem Simulates.invariant (sim : Simulates M okM N okN rel) {I : T → Prop}
    (holds : ∀ t, N.Reach okN t → I t) {s : S} (reach : M.Reach okM s) : ∃ t, I t ∧ rel s t := by
  obtain ⟨t, reached, related⟩ := sim.reach reach
  exact ⟨t, holds t reached, related⟩

/-- A run of `N` is followed step by step. -/
theorem Simulates.steps (sim : Simulates N okN K okK rel') {t t' : T} {u : U}
    (steps : N.Steps okN t t') (reached : N.Reach okN t) (reachedU : K.Reach okK u)
    (related : rel' t u) : ∃ u', K.Steps okK u u' ∧ rel' t' u' := by
  induction steps with
  | refl => exact ⟨u, .refl, related⟩
  | next before admitted hstep ih =>
      obtain ⟨v, first, relatedV⟩ := ih
      obtain ⟨u', rest, related'⟩ := sim.step _ _ _ v (reached.steps before)
        (reachedU.steps first) relatedV admitted hstep
      exact ⟨u', first.trans rest, related'⟩

theorem Simulates.trans (lower : Simulates M okM N okN rel) (upper : Simulates N okN K okK rel') :
    Simulates M okM K okK fun s u => ∃ t, N.Reach okN t ∧ rel s t ∧ rel' t u := by
  constructor
  · intro s started
    obtain ⟨t, startedT, related⟩ := lower.start s started
    obtain ⟨u, startedU, related'⟩ := upper.start t startedT
    exact ⟨u, startedU, t, .start startedT, related, related'⟩
  · rintro s e s' u reached reachedU ⟨t, reachedT, related, related'⟩ admitted hstep
    obtain ⟨t', steps, relatedT⟩ := lower.step s e s' t reached reachedT related admitted hstep
    obtain ⟨u', stepsU, relatedU⟩ := upper.steps steps reachedT reachedU related'
    exact ⟨u', stepsU, t', reachedT.steps steps, relatedT, relatedU⟩

end Simulates

/-! ## Traces -/

/-- The runs from `s`, each with what its steps have shown. -/
inductive Trace {V : Type} (M : Machine S E) (ok : S → E → Prop) (seen : S → E → List V) (s : S) :
    List V → S → Prop
  | refl : Trace M ok seen s [] s
  | next {t u : S} {e : E} {trace : List V} : Trace M ok seen s trace t → ok t e →
      M.step t e = some u → Trace M ok seen s (trace ++ seen t e) u

section Trace

variable {V W : Type} {ok : S → E → Prop} {seen : S → E → List V} {s t u : S}
  {trace trace' : List V}

theorem Trace.one {e : E} (admitted : ok s e) (step : M.step s e = some t) :
    M.Trace ok seen s (seen s e) t :=
  .next .refl admitted step

theorem Trace.trans (first : M.Trace ok seen s trace t) (rest : M.Trace ok seen t trace' u) :
    M.Trace ok seen s (trace ++ trace') u := by
  induction rest with
  | refl =>
      rw [List.append_nil]
      exact first
  | next _ admitted step ih =>
      rw [← List.append_assoc]
      exact .next ih admitted step

theorem Trace.steps (run : M.Trace ok seen s trace t) : M.Steps ok s t := by
  induction run with
  | refl => exact .refl
  | next _ admitted step ih => exact .next ih admitted step

/-- The same run, with less of it shown. -/
theorem Trace.map (f : V → List W) (run : M.Trace ok seen s trace t) :
    M.Trace ok (fun s e => (seen s e).flatMap f) s (trace.flatMap f) t := by
  induction run with
  | refl => exact .refl
  | next _ admitted step ih =>
      rw [List.flatMap_append]
      exact .next ih admitted step

/-- What executing a list of labels shows. -/
def shows (M : Machine S E) (seen : S → E → List V) : S → List E → List V
  | _, [] => []
  | s, e :: rest => seen s e ++ (M.step s e).elim [] fun t => M.shows seen t rest

theorem trace_runs (seen : S → E → List V) {labels : List E} (run : M.runs s labels = some t) :
    M.Trace anyStep seen s (M.shows seen s labels) t := by
  induction labels generalizing s with
  | nil => exact Option.some.inj run ▸ .refl
  | cons e rest ih =>
      obtain ⟨u, step, later⟩ := Option.bind_eq_some_iff.mp run
      have first : M.Trace anyStep seen s (seen s e) u := .one trivial step
      rw [shows, step]
      exact first.trans (ih later)

end Trace

/-- `N` follows `M` and shows the same. -/
structure Mirrors {V : Type} (M : Machine S E) (okM : S → E → Prop) (seenM : S → E → List V)
    (N : Machine T F) (okN : T → F → Prop) (seenN : T → F → List V) (rel : S → T → Prop) :
    Prop where
  start : ∀ s, M.Start s → ∃ t, N.Start t ∧ rel s t
  step : ∀ s e s' t, M.Reach okM s → N.Reach okN t → rel s t → okM s e →
    M.step s e = some s' → ∃ t', N.Trace okN seenN t (seenM s e) t' ∧ rel s' t'

section Mirrors

variable {V : Type} {okM : S → E → Prop} {seenM : S → E → List V} {okN : T → F → Prop}
  {seenN : T → F → List V} {rel : S → T → Prop}

theorem Mirrors.simulates (mirrors : Mirrors M okM seenM N okN seenN rel) :
    Simulates M okM N okN rel := by
  refine ⟨mirrors.start, fun s e s' t reached reachedT related admitted hstep => ?_⟩
  obtain ⟨t', run, related'⟩ := mirrors.step s e s' t reached reachedT related admitted hstep
  exact ⟨t', run.steps, related'⟩

/-- A run is matched by one with the same trace. -/
theorem Mirrors.trace (mirrors : Mirrors M okM seenM N okN seenN rel) {s s' : S} {t : T}
    {trace : List V} (run : M.Trace okM seenM s trace s') (reached : M.Reach okM s)
    (reachedT : N.Reach okN t) (related : rel s t) :
    ∃ t', N.Trace okN seenN t trace t' ∧ rel s' t' := by
  induction run with
  | refl => exact ⟨t, .refl, related⟩
  | next before admitted hstep ih =>
      obtain ⟨u, first, relatedU⟩ := ih
      obtain ⟨t', rest, related'⟩ := mirrors.step _ _ _ u (reached.steps before.steps)
        (reachedT.steps first.steps) relatedU admitted hstep
      exact ⟨t', first.trans rest, related'⟩

theorem Mirrors.trace_start (mirrors : Mirrors M okM seenM N okN seenN rel) {s s' : S}
    {trace : List V} (started : M.Start s) (run : M.Trace okM seenM s trace s') :
    ∃ t t', N.Start t ∧ N.Trace okN seenN t trace t' ∧ rel s' t' := by
  obtain ⟨t, startedT, related⟩ := mirrors.start s started
  obtain ⟨t', run', related'⟩ := mirrors.trace run (.start started) (.start startedT) related
  exact ⟨t, t', startedT, run', related'⟩

end Mirrors

end Machine

/-! ## Programs that call another level in whole procedures -/

namespace Prog

variable {C D α β γ : Type} {R : C → Type} {S : D → Type}

theorem lift_bind {into : C → D} {back : (c : C) → S (into c) → R c} (p : Prog R α)
    (f : α → Prog R β) :
    (p >>= f).lift into back = p.lift into back >>= fun a => (f a).lift into back := by
  induction p with
  | ret a => rfl
  | call c k ih =>
      show Prog.call (into c) _ = Prog.call (into c) _
      exact congrArg (Prog.call (into c)) (funext fun r => ih (back c r))

/-- Between two procedures, each of which meets `proc`, the program makes calls that meet
`own`. -/
inductive Composed (into : C → D) (back : (c : C) → S (into c) → R c)
    (proc : Prog R β → Prop) (own : D → Prop) : Prog S α → Prop
  | ret (a : α) : Composed into back proc own (.ret a)
  | own {d : D} {k : S d → Prog S α} : own d → (∀ r, Composed into back proc own (k r)) →
      Composed into back proc own (.call d k)
  | proc {p : Prog R β} {k : β → Prog S α} : proc p →
      (∀ b, Composed into back proc own (k b)) →
      Composed into back proc own (p.lift into back >>= k)

section Composed

variable {into : C → D} {back : (c : C) → S (into c) → R c} {proc : Prog R β → Prop}
  {own : D → Prop}

theorem Composed.bind {p : Prog S α} {f : α → Prog S γ} (first : Composed into back proc own p)
    (rest : ∀ a, Composed into back proc own (f a)) : Composed into back proc own (p >>= f) := by
  induction first with
  | ret a => exact rest a
  | own mine _ ih => exact .own mine ih
  | proc called _ ih =>
      rw [bind_bind]
      exact .proc called ih

/-- A program that makes no call of the other level. -/
theorem Only.composed {p : Prog S α} (only : p.Only own) : Composed into back proc own p := by
  induction p with
  | ret a => exact .ret a
  | call d k ih => exact .own only.1 fun r => ih r (only.2 r)

theorem Composed.ite {b : Prop} [Decidable b] {p q : Prog S α}
    (yes : Composed into back proc own p) (no : Composed into back proc own q) :
    Composed into back proc own (if b then p else q) := by
  split
  · exact yes
  · exact no

/-- At its next call the program makes a call of its own or begins a procedure. -/
theorem Composed.cases_call {p : Prog S α} (composed : Composed into back proc own p) {d : D}
    {next : S d → Prog S α} (calls : p = .call d next) :
    (own d ∧ ∀ r, Composed into back proc own (next r)) ∨
      ∃ (c : C) (k : R c → Prog R β) (rest : β → Prog S α), proc (.call c k) ∧
        (∀ b, Composed into back proc own (rest b)) ∧
        p = (Prog.call c k : Prog R β).lift into back >>= rest := by
  induction composed with
  | ret a => exact nomatch calls
  | own mine after _ =>
      cases calls
      exact .inl ⟨mine, after⟩
  | proc called after ih =>
      rename_i q rest
      cases q with
      -- a procedure without calls: what is behind it decides
      | ret b => exact ih b calls
      | call c k => exact .inr ⟨c, k, rest, called, after, rfl⟩

end Composed

end Prog

end Calls
