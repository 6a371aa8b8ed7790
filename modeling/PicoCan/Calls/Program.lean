/-!
# Programs over an interface of calls

A C function of a firmware is a sequence of calls into the system below it
(kernel, drivers, sockets, files) with pure code in between. `Prog R α` is
that sequence: either a result, or one call `c` together with what the
function does with each answer of type `R c`. The interface is left open:
`C` is any type of calls and `R` says what each of them answers.

One program has two readings, and both are defined here:

* `Prog.run` runs it alone against a handler that answers every call from an
  explicit state;
* as the control state of a thread it makes one call at a time, and
  `Prog.wp` says what must hold of the state the thread can see for the rest
  of the program to end in a postcondition, call by call.
-/

namespace Calls

variable {C : Type} {R : C → Type} {α β γ σ : Type}

/-- A result, or one call and the rest of the program for each answer. -/
inductive Prog {C : Type} (R : C → Type) (α : Type) : Type
  | ret (a : α)
  | call (c : C) (k : R c → Prog R α)

namespace Prog

/-- Sequencing: the calls of `p`, then those of `f` at its result. -/
def bind : Prog R α → (α → Prog R β) → Prog R β
  | .ret a, f => f a
  | .call c k, f => .call c fun r => (k r).bind f

instance : Monad (Prog R) where
  pure := .ret
  bind := bind

@[simp] theorem pure_eq (a : α) : (pure a : Prog R α) = .ret a := rfl

@[simp] theorem ret_bind (a : α) (f : α → Prog R β) : (Prog.ret a >>= f) = f a := rfl

@[simp] theorem call_bind (c : C) (k : R c → Prog R α) (f : α → Prog R β) :
    (Prog.call c k >>= f) = .call c fun r => k r >>= f := rfl

theorem bind_bind (p : Prog R α) (f : α → Prog R β) (g : β → Prog R γ) :
    (p >>= f >>= g) = p >>= fun a => f a >>= g := by
  induction p with
  | ret a => rfl
  | call c k ih =>
      show Prog.call c _ = Prog.call c _
      exact congrArg (Prog.call c) (funext ih)

theorem ite_bind (b : Prop) [Decidable b] (p q : Prog R α) (f : α → Prog R β) :
    (if b then p else q) >>= f = if b then p >>= f else q >>= f := by
  split <;> rfl

/-- The program that makes one call and returns its answer. -/
def perform (c : C) : Prog R (R c) := .call c .ret

@[simp] theorem perform_bind (c : C) (f : R c → Prog R β) :
    (perform c >>= f) = .call c f := rfl

/-- The same program over a larger interface that contains this one. -/
def lift {D : Type} {S : D → Type} (into : C → D) (back : (c : C) → S (into c) → R c) :
    Prog R α → Prog S α
  | .ret a => .ret a
  | .call c k => .call (into c) fun r => (k (back c r)).lift into back

/-! ## Running a program alone -/

/-- Run against a handler that answers each call from a state. -/
def run (handle : (c : C) → σ → R c × σ) : Prog R α → σ → α × σ
  | .ret a, s => (a, s)
  | .call c k, s => (k (handle c s).1).run handle (handle c s).2

section run

variable (handle : (c : C) → σ → R c × σ)

@[simp] theorem run_ret (a : α) (s : σ) : (Prog.ret a : Prog R α).run handle s = (a, s) := rfl

@[simp] theorem run_call (c : C) (k : R c → Prog R α) (s : σ) :
    (Prog.call c k).run handle s = (k (handle c s).1).run handle (handle c s).2 := rfl

@[simp] theorem run_perform (c : C) (s : σ) : (perform c).run handle s = handle c s := rfl

@[simp] theorem run_bind (p : Prog R α) (f : α → Prog R β) (s : σ) :
    (p >>= f).run handle s = (f (p.run handle s).1).run handle (p.run handle s).2 := by
  induction p generalizing s with
  | ret a => rfl
  | call c k ih => exact ih _ _

end run

/-- Run where a call may be disabled; `none` when one is. -/
def attempt (exec : (c : C) → σ → Option (R c × σ)) : Prog R α → σ → Option (α × σ)
  | .ret a, s => some (a, s)
  | .call c k, s => (exec c s).bind fun (r, s') => (k r).attempt exec s'

@[simp] theorem attempt_ret (exec : (c : C) → σ → Option (R c × σ)) (a : α) (s : σ) :
    (Prog.ret a : Prog R α).attempt exec s = some (a, s) := rfl

@[simp] theorem attempt_call (exec : (c : C) → σ → Option (R c × σ)) (c : C)
    (k : R c → Prog R α) (s : σ) :
    (Prog.call c k).attempt exec s =
      (exec c s).bind fun (r, s') => (k r).attempt exec s' := rfl

@[simp] theorem attempt_ite (exec : (c : C) → σ → Option (R c × σ)) (b : Prop)
    [Decidable b] (p q : Prog R α) (s : σ) :
    (if b then p else q).attempt exec s = if b then p.attempt exec s else q.attempt exec s := by
  split <;> rfl

/-! ## Calls carried out by programs -/

/-- Every call carried out by a program over another interface. -/
def interpret {D : Type} {S : D → Type} (impl : (c : C) → Prog S (R c)) : Prog R α → Prog S α
  | .ret a => .ret a
  | .call c k => (impl c).bind fun r => (k r).interpret impl

section interpret

variable {D : Type} {S : D → Type} (impl : (c : C) → Prog S (R c))

@[simp] theorem interpret_ret (a : α) : (Prog.ret a : Prog R α).interpret impl = .ret a := rfl

@[simp] theorem interpret_call (c : C) (k : R c → Prog R α) :
    (Prog.call c k).interpret impl = impl c >>= fun r => (k r).interpret impl := rfl

theorem interpret_bind (p : Prog R α) (f : α → Prog R β) :
    (p >>= f).interpret impl = p.interpret impl >>= fun a => (f a).interpret impl := by
  induction p with
  | ret a => rfl
  | call c k ih =>
      have rest : (fun r => (k r >>= f).interpret impl) =
          fun r => (k r).interpret impl >>= fun a => (f a).interpret impl := funext ih
      rw [call_bind, interpret_call, rest, interpret_call, bind_bind]

/-- Calls lifted into a larger interface that carries them out as they are. -/
theorem interpret_lift {into : D → C} {back : (d : D) → R (into d) → S d}
    (same : ∀ d, (impl (into d) >>= fun r => .ret (back d r)) = perform d) (p : Prog S α) :
    (p.lift into back).interpret impl = p := by
  induction p with
  | ret a => rfl
  | call d k ih =>
      have rest : (fun r => ((k (back d r)).lift into back).interpret impl) =
          fun r => k (back d r) := funext fun r => ih (back d r)
      show impl (into d) >>= (fun r => ((k (back d r)).lift into back).interpret impl) = .call d k
      rw [rest]
      calc impl (into d) >>= (fun r => k (back d r))
          = (impl (into d) >>= fun r => .ret (back d r)) >>= k :=
            (bind_bind (impl (into d)) (fun r => .ret (back d r)) k).symm
        _ = perform d >>= k := by rw [same]
        _ = .call d k := rfl

/-- To run a program is to run what carries out its calls. -/
theorem run_interpret (handle : (d : D) → σ → S d × σ) (p : Prog R α) (s : σ) :
    (p.interpret impl).run handle s = p.run (fun c s => (impl c).run handle s) s := by
  induction p generalizing s with
  | ret a => rfl
  | call c k ih => rw [interpret_call, run_bind, ih]; rfl

end interpret

/-- A handler that keeps more than another one answers the same. -/
theorem run_project {τ : Type} (forget : τ → σ) {handle : (c : C) → σ → R c × σ}
    {handle' : (c : C) → τ → R c × τ}
    (agrees : ∀ c t, handle c (forget t) = ((handle' c t).1, forget (handle' c t).2))
    (p : Prog R α) (t : τ) :
    p.run handle (forget t) = ((p.run handle' t).1, forget (p.run handle' t).2) := by
  induction p generalizing t with
  | ret a => rfl
  | call c k ih => rw [run_call, run_call, agrees, ih]

/-! ## Progress -/

/-- One answer further: what is left of a program after its next call. -/
inductive Next : Prog R α → Prog R α → Prop
  | answer (c : C) (k : R c → Prog R α) (r : R c) : Next (k r) (.call c k)

/-- A program makes finitely many calls. -/
theorem next_wf : WellFounded (Next (R := R) (α := α)) := by
  refine ⟨fun p => ?_⟩
  induction p with
  | ret a => exact ⟨_, fun _ next => nomatch next⟩
  | call c k ih => exact ⟨_, fun _ next => by cases next; exact ih _⟩

/-! ## The calls a program may make -/

/-- Every call the program can make, whatever the answers, satisfies `P`. -/
def Only (P : C → Prop) : Prog R α → Prop
  | .ret _ => True
  | .call c k => P c ∧ ∀ r, (k r).Only P

@[simp] theorem only_ret (P : C → Prop) (a : α) : (Prog.ret a : Prog R α).Only P := trivial

theorem only_true (p : Prog R α) : p.Only fun _ => True := by
  induction p with
  | ret a => trivial
  | call c k ih => exact ⟨trivial, ih⟩

theorem Only.bind {P : C → Prop} {p : Prog R α} {f : α → Prog R β}
    (first : p.Only P) (rest : ∀ a, (f a).Only P) : (p >>= f).Only P := by
  induction p with
  | ret a => exact rest a
  | call c k ih => exact ⟨first.1, fun r => ih r (first.2 r)⟩

theorem Only.of_bind {P : C → Prop} {p : Prog R α} {f : α → Prog R β}
    (only : (p >>= f).Only P) : p.Only P := by
  induction p with
  | ret a => trivial
  | call c k ih => exact ⟨only.1, fun r => ih r (only.2 r)⟩

theorem Only.ite {P : C → Prop} {b : Prop} [Decidable b] {p q : Prog R α}
    (yes : b → p.Only P) (no : ¬ b → q.Only P) : (if b then p else q).Only P := by
  split
  · exact yes ‹b›
  · exact no ‹¬ b›

theorem Only.mono {P Q : C → Prop} (weaker : ∀ c, P c → Q c) {p : Prog R α}
    (only : p.Only P) : p.Only Q := by
  induction p with
  | ret a => trivial
  | call c k ih => exact ⟨weaker c only.1, fun r => ih r (only.2 r)⟩

/-- Calls that are always answered and leave the state alone do not get in the way. -/
theorem Only.attempt {P : C → Prop} {exec : (c : C) → σ → Option (R c × σ)} {s : σ}
    (answers : ∀ c, P c → ∃ r, exec c s = some (r, s)) {p : Prog R α} (only : p.Only P) :
    ∃ a, p.attempt exec s = some (a, s) := by
  induction p with
  | ret a => exact ⟨a, rfl⟩
  | call c k ih =>
      obtain ⟨r, answer⟩ := answers c only.1
      obtain ⟨a, rest⟩ := ih r (only.2 r)
      exact ⟨a, by rw [attempt_call, answer]; exact rest⟩

theorem Only.lift {D : Type} {S : D → Type} {into : C → D} {back : (c : C) → S (into c) → R c}
    {P : C → Prop} {P' : D → Prop} (calls : ∀ c, P c → P' (into c)) {p : Prog R α}
    (only : p.Only P) : (p.lift into back).Only P' := by
  induction p with
  | ret a => trivial
  | call c k ih => exact ⟨calls c only.1, fun r => ih _ (only.2 _)⟩

/-- A property of the state that every admitted call keeps is kept by the run. -/
theorem Only.run_keeps {P : C → Prop} {handle : (c : C) → σ → R c × σ} {I : σ → Prop}
    (keeps : ∀ c s, P c → I s → I (handle c s).2) {p : Prog R α} (only : p.Only P) {s : σ}
    (start : I s) : I (p.run handle s).2 := by
  induction p generalizing s with
  | ret a => exact start
  | call c k ih => exact ih _ (only.2 _) (keeps c s only.1 start)

/-! ## The results a program may have -/

/-- Every result the program can have, whatever the answers, satisfies `Q`. -/
def Returns (Q : α → Prop) : Prog R α → Prop
  | .ret a => Q a
  | .call _ k => ∀ r, (k r).Returns Q

theorem Returns.bind {P : α → Prop} {Q : β → Prop} {p : Prog R α} {f : α → Prog R β}
    (first : p.Returns P) (rest : ∀ a, P a → (f a).Returns Q) : (p >>= f).Returns Q := by
  induction p with
  | ret a => exact rest a first
  | call c k ih => exact fun r => ih r (first r)

theorem returns_true (p : Prog R α) : p.Returns fun _ => True := by
  induction p with
  | ret a => trivial
  | call c k ih => exact ih

theorem Returns.ite {Q : α → Prop} {b : Prop} [Decidable b] {p q : Prog R α}
    (yes : b → p.Returns Q) (no : ¬ b → q.Returns Q) : (if b then p else q).Returns Q := by
  split
  · exact yes ‹b›
  · exact no ‹¬ b›

theorem Returns.mono {Q Q' : α → Prop} (weaker : ∀ a, Q a → Q' a) {p : Prog R α}
    (returns : p.Returns Q) : p.Returns Q' := by
  induction p with
  | ret a => exact weaker a returns
  | call c k ih => exact fun r => ih r (returns r)

theorem Returns.and {Q Q' : α → Prop} {p : Prog R α} (first : p.Returns Q)
    (second : p.Returns Q') : p.Returns fun a => Q a ∧ Q' a := by
  induction p with
  | ret a => exact ⟨first, second⟩
  | call c k ih => exact fun r => ih r (first r) (second r)

theorem Returns.lift {D : Type} {S : D → Type} {into : C → D} {back : (c : C) → S (into c) → R c}
    {Q : α → Prop} {p : Prog R α} (returns : p.Returns Q) : (p.lift into back).Returns Q := by
  induction p with
  | ret a => exact returns
  | call c k ih => exact fun r => ih _ (returns _)

theorem Returns.run {Q : α → Prop} (handle : (c : C) → σ → R c × σ) {p : Prog R α}
    (returns : p.Returns Q) (s : σ) : Q (p.run handle s).1 := by
  induction p generalizing s with
  | ret a => exact returns
  | call c k ih => exact ih _ (returns _) _

end Prog

/-! ## Weakest preconditions, one call at a time -/

/-- What each call needs of the state and promises about answer and new state,
as a predicate transformer. -/
abbrev Spec {C : Type} (R : C → Type) (σ : Type) : Type :=
  (c : C) → (R c → σ → Prop) → σ → Prop

/-- A spec promises no less for a weaker postcondition. -/
def Spec.Mono (Φ : Spec R σ) : Prop :=
  ∀ c (post post' : R c → σ → Prop), (∀ r s, post r s → post' r s) →
    ∀ s, Φ c post s → Φ c post' s

namespace Prog

/-- What must hold before `p` so that it ends in `Q`, if every call keeps to `Φ`. -/
def wp (Φ : Spec R σ) : Prog R α → (α → σ → Prop) → σ → Prop
  | .ret a, Q, s => Q a s
  | .call c k, Q, s => Φ c (fun r s' => (k r).wp Φ Q s') s

@[simp] theorem wp_ret (Φ : Spec R σ) (a : α) (Q : α → σ → Prop) (s : σ) :
    (Prog.ret a : Prog R α).wp Φ Q s ↔ Q a s := Iff.rfl

@[simp] theorem wp_call (Φ : Spec R σ) (c : C) (k : R c → Prog R α) (Q : α → σ → Prop)
    (s : σ) : (Prog.call c k).wp Φ Q s ↔ Φ c (fun r s' => (k r).wp Φ Q s') s := Iff.rfl

@[simp] theorem wp_perform (Φ : Spec R σ) (c : C) (Q : R c → σ → Prop) (s : σ) :
    (perform c).wp Φ Q s ↔ Φ c Q s := Iff.rfl

@[simp] theorem wp_bind (Φ : Spec R σ) (p : Prog R α) (f : α → Prog R β)
    (Q : β → σ → Prop) (s : σ) :
    (p >>= f).wp Φ Q s ↔ p.wp Φ (fun a s' => (f a).wp Φ Q s') s := by
  induction p generalizing s with
  | ret a => rfl
  | call c k ih =>
      have same : (fun r s' => (k r >>= f).wp Φ Q s') =
          fun r s' => (k r).wp Φ (fun a t => (f a).wp Φ Q t) s' :=
        funext fun r => funext fun s' => propext (ih r s')
      rw [call_bind, wp_call, wp_call, same]

@[simp] theorem wp_ite (Φ : Spec R σ) (b : Prop) [Decidable b] (p q : Prog R α)
    (Q : α → σ → Prop) (s : σ) :
    (if b then p else q).wp Φ Q s ↔ (b → p.wp Φ Q s) ∧ (¬ b → q.wp Φ Q s) := by
  split <;> simp [*]

theorem wp_mono {Φ : Spec R σ} (mono : Φ.Mono) {p : Prog R α} {Q Q' : α → σ → Prop}
    (weaker : ∀ a s, Q a s → Q' a s) {s : σ} (holds : p.wp Φ Q s) : p.wp Φ Q' s := by
  induction p generalizing s with
  | ret a => exact weaker a s holds
  | call c k ih => exact mono c _ _ (fun r s' h => ih r h) s holds

/-- What a run ends with, when the handler keeps to the spec on the part of the state that
the spec is about. -/
theorem wp_run {τ : Type} {Φ : Spec R σ} {handle : (c : C) → τ → R c × τ} {I : σ → τ → Prop}
    (sound : ∀ c (post : R c → σ → Prop) v t, Φ c post v → I v t →
      ∃ v', post (handle c t).1 v' ∧ I v' (handle c t).2)
    {p : Prog R α} {Q : α → σ → Prop} {v : σ} (holds : p.wp Φ Q v) {t : τ} (start : I v t) :
    ∃ v', Q (p.run handle t).1 v' ∧ I v' (p.run handle t).2 := by
  induction p generalizing v t with
  | ret a => exact ⟨v, holds, start⟩
  | call c k ih =>
      obtain ⟨v', rest, kept⟩ := sound c _ v t holds start
      exact ih _ rest kept

/-- Calls that leave the state alone, whatever they answer, can be skipped. -/
theorem Only.wp {Φ : Spec R σ} {P : C → Prop} {s : σ}
    (skips : ∀ c (post : R c → σ → Prop), P c → (∀ r, post r s) → Φ c post s)
    {p : Prog R α} (only : p.Only P) {Q : α → σ → Prop} (after : ∀ a, Q a s) :
    p.wp Φ Q s := by
  induction p with
  | ret a => exact after a
  | call c k ih => exact skips c _ only.1 fun r => ih r (only.2 r)

/-- The same, when something is known of the results. -/
theorem Only.wp_returns {Φ : Spec R σ} {P : C → Prop} {A : α → Prop} {s : σ}
    (skips : ∀ c (post : R c → σ → Prop), P c → (∀ r, post r s) → Φ c post s)
    {p : Prog R α} (only : p.Only P) (returns : p.Returns A) {Q : α → σ → Prop}
    (after : ∀ a, A a → Q a s) : p.wp Φ Q s := by
  induction p with
  | ret a => exact after a returns
  | call c k ih => exact skips c _ only.1 fun r => ih r (only.2 r) (returns r)

end Prog

/-! ## Handlers as specs -/

/-- What a handler does, as a spec. -/
def Spec.of (handle : (c : C) → σ → R c × σ) : Spec R σ :=
  fun c post s => post (handle c s).1 (handle c s).2

theorem Spec.of_mono (handle : (c : C) → σ → R c × σ) : (Spec.of handle).Mono :=
  fun _ _ _ weaker _ holds => weaker _ _ holds

namespace Prog

theorem wp_of {handle : (c : C) → σ → R c × σ} {p : Prog R α} {Q : α → σ → Prop} {s : σ} :
    p.wp (Spec.of handle) Q s ↔ Q (p.run handle s).1 (p.run handle s).2 := by
  induction p generalizing s with
  | ret a => rfl
  | call c k ih => exact ih _

/-- A handler that keeps the calls it was asked, in order. -/
def logged (handle : (c : C) → σ → R c × σ) : (c : C) → σ × List C → R c × (σ × List C) :=
  fun c s => ((handle c s.1).1, ((handle c s.1).2, s.2 ++ [c]))

theorem Only.logged {P : C → Prop} {handle : (c : C) → σ → R c × σ} {p : Prog R α}
    (only : p.Only P) {s : σ × List C} (before : ∀ c ∈ s.2, P c) :
    ∀ c ∈ (p.run (Prog.logged handle) s).2.2, P c := by
  refine only.run_keeps (I := fun s : σ × List C => ∀ c ∈ s.2, P c) (fun c s call kept => ?_) before
  intro c' member
  rcases List.mem_append.mp member with old | new
  · exact kept c' old
  · exact List.mem_singleton.mp new ▸ call

/-- A run adds to the log. -/
theorem logged_prefix (handle : (c : C) → σ → R c × σ) (p : Prog R α) (s : σ) (log : List C) :
    log <+: (p.run (logged handle) (s, log)).2.2 := by
  have only : p.Only fun _ => True := p.only_true
  exact only.run_keeps (I := fun s : σ × List C => log <+: s.2)
    (fun c s _ before => before.trans (List.prefix_append s.2 [c])) List.prefix_rfl

/-! ## Runs whose calls meet a condition -/

/-- Every call of the run meets `ok` in the state in which it is made. -/
def Meets (handle : (c : C) → σ → R c × σ) (ok : C → σ → Prop) : Prog R α → σ → Prop
  | .ret _, _ => True
  | .call c k, s => ok c s ∧ (k (handle c s).1).Meets handle ok (handle c s).2

theorem meets_bind {handle : (c : C) → σ → R c × σ} {ok : C → σ → Prop} {p : Prog R α}
    {f : α → Prog R β} {s : σ} : (p >>= f).Meets handle ok s ↔
      p.Meets handle ok s ∧ (f (p.run handle s).1).Meets handle ok (p.run handle s).2 := by
  induction p generalizing s with
  | ret a => exact ⟨fun rest => ⟨trivial, rest⟩, And.right⟩
  | call c k ih =>
      rw [call_bind, run_call]
      show _ ∧ (k (handle c s).1 >>= f).Meets handle ok (handle c s).2 ↔ (_ ∧ _) ∧ _
      rw [ih, and_assoc]

/-- A run of admitted calls meets what an invariant that they keep implies. -/
theorem Only.meets {handle : (c : C) → σ → R c × σ} {ok : C → σ → Prop} {P : C → Prop}
    {I : σ → Prop} (calls : ∀ c s, P c → I s → ok c s ∧ I (handle c s).2) {p : Prog R α}
    (only : p.Only P) {s : σ} (start : I s) : p.Meets handle ok s := by
  induction p generalizing s with
  | ret a => trivial
  | call c k ih =>
      obtain ⟨meets, kept⟩ := calls c s only.1 start
      exact ⟨meets, ih _ (only.2 _) kept⟩

end Prog

end Calls
