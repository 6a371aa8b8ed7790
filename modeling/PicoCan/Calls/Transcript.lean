import PicoCan.Calls.Program

/-!
# Transcripts

A thread knows nothing of its surroundings but the answers to its calls. `Took` is what it
has asked and been answered on its way, whatever else ran in between; a handler that gives
these answers takes the program the same way (`Took.run`). Answers that the program does not
look at (`Blind`) need not agree.
-/

namespace Calls

variable {C : Type} {R : C → Type} {α β σ : Type}

/-- A call and its answer. -/
abbrev Asked {C : Type} (R : C → Type) : Type := (c : C) × R c

/-- Asked and answered so, oldest first, `p` has become `q`. -/
inductive Took : Prog R α → List (Asked R) → Prog R α → Prop
  | start (p : Prog R α) : Took p [] p
  | call {c : C} {k : R c → Prog R α} {r : R c} {calls : List (Asked R)} {q : Prog R α}
      (rest : Took (k r) calls q) : Took (.call c k) (⟨c, r⟩ :: calls) q

theorem Took.snoc {p : Prog R α} {calls : List (Asked R)} {c : C} {k : R c → Prog R α}
    (took : Took p calls (.call c k)) (r : R c) : Took p (calls ++ [⟨c, r⟩]) (k r) := by
  generalize stands : Prog.call c k = q at took
  induction took with
  | start p =>
      subst stands
      exact .call (.start (k r))
  | call rest ih => exact .call (ih stands)

/-- Asked in turn, the handler gives these answers, up to those to calls that `ignored` admits. -/
inductive Replays (handle : (c : C) → σ → R c × σ) (ignored : C → Prop) :
    σ → List (Asked R) → σ → Prop
  | start (s : σ) : Replays handle ignored s [] s
  | call {c : C} {r : R c} {calls : List (Asked R)} {s t : σ}
      (same : ¬ ignored c → (handle c s).1 = r)
      (rest : Replays handle ignored (handle c s).2 calls t) :
      Replays handle ignored s (⟨c, r⟩ :: calls) t

namespace Prog

/-- Whatever a call that `ignored` admits answers, the program goes on the same. -/
def Blind (ignored : C → Prop) : Prog R α → Prop
  | .ret _ => True
  | .call c k => (ignored c → ∀ r r', k r = k r') ∧ ∀ r, (k r).Blind ignored

theorem Only.blind {ignored : C → Prop} {p : Prog R α} (only : p.Only fun c => ¬ ignored c) :
    p.Blind ignored := by
  induction p with
  | ret a => trivial
  | call c k ih => exact ⟨fun is => absurd is only.1, fun r => ih r (only.2 r)⟩

theorem Blind.bind {ignored : C → Prop} {p : Prog R α} {f : α → Prog R β}
    (first : p.Blind ignored) (rest : ∀ a, (f a).Blind ignored) : (p >>= f).Blind ignored := by
  induction p with
  | ret a => exact rest a
  | call c k ih =>
      refine ⟨fun is r r' => ?_, fun r => ih r (first.2 r)⟩
      show k r >>= f = k r' >>= f
      rw [first.1 is r r']

theorem Blind.ite {ignored : C → Prop} {b : Prop} [Decidable b] {p q : Prog R α}
    (yes : b → p.Blind ignored) (no : ¬ b → q.Blind ignored) :
    (if b then p else q).Blind ignored := by
  split
  · exact yes ‹b›
  · exact no ‹¬ b›

end Prog

/-- A handler that gives the answers of a transcript takes the program the same way. -/
theorem Took.run {handle : (c : C) → σ → R c × σ} {ignored : C → Prop} {p q : Prog R α}
    {calls : List (Asked R)} (took : Took p calls q) (blind : p.Blind ignored) {s t : σ}
    (replays : Replays handle ignored s calls t) : p.run handle s = q.run handle t := by
  induction took generalizing s with
  | start p =>
      cases replays
      rfl
  | @call c k r calls q rest ih =>
      cases replays with
      | call same after =>
          rw [Prog.run_call]
          have goes : k (handle c s).1 = k r := by
            by_cases is : ignored c
            · exact blind.1 is _ _
            · rw [same is]
          rw [goes]
          exact ih (blind.2 r) after

end Calls
