import PicoCan.Calls.Program

/-!
# Two runs

Triples about two runs: started in states that are related, two programs return the same and
leave states that are related again. Mostly both are the same program (`Alike`); a loop that
makes only calls of which this holds needs no argument of its own (`Only.alike`).
-/

namespace Calls

namespace Prog

variable {C : Type} {R : C → Type} {σ α β : Type} {handle : (c : C) → σ → R c × σ}

/-- Runs of the two programs that start in states related by `E` return the same, and end in
states that `F` relates for that result. -/
def Couples (handle : (c : C) → σ → R c × σ) (E : σ → σ → Prop) (F : α → σ → σ → Prop)
    (p p' : Prog R α) : Prop :=
  ∀ s s', E s s' → ∃ a t t', p.run handle s = (a, t) ∧ p'.run handle s' = (a, t') ∧ F a t t'

/-- Two runs of one program. -/
abbrev Alike (handle : (c : C) → σ → R c × σ) (E : σ → σ → Prop) (F : α → σ → σ → Prop)
    (p : Prog R α) : Prop :=
  p.Couples handle E F p

theorem Couples.ret {E : σ → σ → Prop} {F : α → σ → σ → Prop} {a : α}
    (related : ∀ s s', E s s' → F a s s') : (Prog.ret a : Prog R α).Alike handle E F :=
  fun s s' start => ⟨a, s, s', rfl, rfl, related s s' start⟩

theorem Couples.bind {E : σ → σ → Prop} {F : α → σ → σ → Prop} {G : β → σ → σ → Prop}
    {p p' : Prog R α} {f f' : α → Prog R β} (first : p.Couples handle E F p')
    (rest : ∀ a, (f a).Couples handle (F a) G (f' a)) :
    (p >>= f).Couples handle E G (p' >>= f') := by
  intro s s' start
  obtain ⟨a, t, t', run, run', related⟩ := first s s' start
  rw [run_bind, run_bind, run, run']
  exact rest a t t' related

theorem Couples.ite {E : σ → σ → Prop} {F : α → σ → σ → Prop} {b : Prop} [Decidable b]
    {p p' q q' : Prog R α} (yes : b → p.Couples handle E F p')
    (no : ¬ b → q.Couples handle E F q') :
    (if b then p else q).Couples handle E F (if b then p' else q') := by
  by_cases h : b
  · rw [if_pos h, if_pos h]
    exact yes h
  · rw [if_neg h, if_neg h]
    exact no h

/-- A relation that every admitted call keeps, with the same answer, is kept by the run. -/
theorem Only.alike {P : C → Prop} {E : σ → σ → Prop}
    (calls : ∀ c s s', P c → E s s' →
      (handle c s).1 = (handle c s').1 ∧ E (handle c s).2 (handle c s').2)
    {p : Prog R α} (only : p.Only P) : p.Alike handle E fun _ => E := by
  induction p with
  | ret a => exact .ret fun _ _ related => related
  | call c k ih =>
      intro s s' start
      obtain ⟨same, related⟩ := calls c s s' only.1 start
      obtain ⟨a, t, t', run, run', after⟩ := ih (handle c s).1 (only.2 _) _ _ related
      rw [run_call, run_call, run, ← same, run']
      exact ⟨a, t, t', rfl, rfl, after⟩

end Prog

end Calls
